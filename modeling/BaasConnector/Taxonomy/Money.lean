import BaasConnector.Lib.CodeUnits

namespace BaasConnector.Taxonomy.Money

open BaasConnector.Lib.CodeUnits

/-- The wire form of an amount in reais. -/
structure MoneyJSON where
  amount : Text
  scale : Nat
deriving DecidableEq, Repr

def currencyScale : Nat := 2

def maxSafeCents : Int := 9223372036854775807

/-- Out of the range of a BIGINT there is no money. -/
def ofCents (cents : Int) : Option Int :=
  if maxSafeCents < cents ∨ cents < -maxSafeCents then none else some cents

def fromJSON (json : MoneyJSON) : Option Int :=
  if json.scale ≠ currencyScale then none else (readInteger json.amount).bind ofCents

/-- The digits after the separator, none when there is no separator. -/
def fraction : Text → Option Text
  | [] => some []
  | separator :: digits =>
    if (separator = 0x2E ∨ separator = 0x2C) ∧ digits ≠ [] ∧ digits.all isDigit then some digits else none

/-- The cents of a decimal amount, exactly. -/
def fromDecimalString (value : Text) : Option Int :=
  let trimmed := trim value
  let negative := trimmed.head? = some 0x2D
  let text := if negative then trimmed.tail else trimmed
  let whole := text.takeWhile isDigit
  (fraction (text.dropWhile isDigit)).bind fun frac =>
    if whole = [] ∨ currencyScale < frac.length then none
    else (readDigits 10 (whole ++ frac ++ List.replicate (currencyScale - frac.length) 0x30)).bind
      fun cents =>
      ofCents (if negative then -(cents : Int) else cents)

example : fromDecimalString (units "150.7") = some 15070 := by decide

end BaasConnector.Taxonomy.Money

namespace BaasConnector.Taxonomy.Amounts

open BaasConnector.Taxonomy.Money

/-- An amount in cents that fits a BIGINT. -/
structure Amount where
  cents : Int
  atLeast : -maxSafeCents ≤ cents
  atMost : cents ≤ maxSafeCents
deriving DecidableEq, Repr

namespace Amount

/-- Out of the range of a BIGINT an amount is refused. -/
def of (cents : Int) : Except String Amount :=
  if h : maxSafeCents < cents ∨ cents < -maxSafeCents then
    .error s!"Valor fora do intervalo de BIGINT: {cents}"
  else
    .ok ⟨cents, Int.not_lt.mp (not_or.mp h).2, Int.not_lt.mp (not_or.mp h).1⟩

instance : Neg Amount where
  neg amount := ⟨-amount.cents, Int.neg_le_neg amount.atMost, Int.neg_le_of_neg_le amount.atLeast⟩

def negate (amount : Amount) : Except String Amount := of (-amount.cents)

@[simp] theorem neg_cents (amount : Amount) : (-amount).cents = -amount.cents := rfl

@[ext] theorem ext {a b : Amount} (h : a.cents = b.cents) : a = b := by
  cases a
  cases b
  cases h
  rfl

theorem of_ok {cents : Int} {amount : Amount} : of cents = .ok amount ↔ amount.cents = cents := by
  unfold of
  split_ifs with h
  · refine ⟨nofun, ?_⟩
    rintro rfl
    have hlow := amount.atLeast
    have hhigh := amount.atMost
    omega
  · refine ⟨fun hok => by cases hok; rfl, ?_⟩
    rintro rfl
    rfl

theorem negate_eq (amount : Amount) : amount.negate = .ok (-amount) := of_ok.mpr rfl

end Amount

end BaasConnector.Taxonomy.Amounts
