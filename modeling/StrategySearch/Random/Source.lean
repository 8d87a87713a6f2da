import StrategySearch.Failure
import StrategySearch.Power

/-! Random words and what is drawn from them. A draw takes words from the front of the source and
leaves the rest, also when it ends in a fault. -/

set_option autoImplicit false

namespace StrategySearch

class WordSource (γ : Type) where
  next : γ → UInt64 × γ

abbrev Draw (γ : Type) := ExceptT Stop (StateM γ)

/-- The words of a list, then zeros. -/
structure WordList where
  words : List UInt64

instance : WordSource WordList where
  next s := match s.words with
    | [] => (0, s)
    | w :: rest => (w, ⟨rest⟩)

namespace Draw

variable {γ : Type} [WordSource γ]

def word : Draw γ UInt64 := ExceptT.lift WordSource.next

def fraction (w : UInt64) : Float := (w >>> 11).toFloat * 1.1102230246251565e-16

def unit : Draw γ Float := fraction <$> word

/-- Refusals in a row after which a draw gives its fallback; no source of random words meets it. -/
def patience : Nat := 1000

/-- The words whose low product is not above this are spread evenly over the range. -/
def zone (n : Nat) : Nat := n * twoTo (64 - (Nat.log2 n + 1)) - 1

def below (n : Nat) : Draw γ Nat :=
  let rec attempt : Nat → Draw γ Nat
    | 0 => return 0
    | fuel + 1 => do
      let product := (← word).toNat * n
      if product % UInt64.size ≤ zone n then return product / UInt64.size else attempt fuel
  attempt patience

def openUnit : Draw γ Float := do
  let w ← word
  return Float.ofBits ((w >>> 12) ||| 0x3FF0000000000000) - (1.0 - 1.1102230246251565e-16)

def ofAnswer {α : Type} (a : Answer α) : Draw γ α := ExceptT.mk (pure a)

end Draw
end StrategySearch
