import StrategySearch.FloatText.Layout
import StrategySearch.Random.Layers
import StrategySearch.Random.Source

/-! Normal distributions: draws by layers of equal area, and the logarithm of the density. -/

set_option autoImplicit false

namespace StrategySearch

structure Normal where
  mean : Float
  deviation : Float

namespace Normal

def make? (mean deviation : Float) : Option Normal :=
  if mean.isNaN || deviation.isNaN || deviation ≤ 0.0 then none else some ⟨mean, deviation⟩

variable {γ : Type} [WordSource γ]

def tail : Nat → Draw γ Float
  | 0 => return 0.0
  | fuel + 1 => do
    let x := (← Draw.openUnit).log / Random.Layers.tailStart
    let y := (← Draw.openUnit).log
    if -2.0 * y < x * x then tail fuel else return x

/-- One word chooses a layer and a place in it; most places need no second look. -/
def standard : Nat → Draw γ Float
  | 0 => return 0.0
  | fuel + 1 => do
    let w ← Draw.word
    let i := (w &&& 0xff).toNat
    let u := 2.0 * Draw.fraction w - 1.0
    let x := u * Random.Layers.edge i
    if x.abs < Random.Layers.edge (i + 1) then return x
    else if i = 0 then
      let t ← tail Draw.patience
      return if u < 0.0 then t - Random.Layers.tailStart else Random.Layers.tailStart - t
    else
      let high := Random.Layers.height i
      let low := Random.Layers.height (i + 1)
      if low + (high - low) * (← Draw.unit) < (-x * x / 2.0).exp then return x
      else standard fuel

def draw (d : Normal) : Draw γ Float := do
  return d.mean + d.deviation * (← standard Draw.patience)

def halfLogTau : Float := 0.91893853320467274178

def logDensity (d : Normal) (x : Float) : Float :=
  let z := (x - d.mean) / d.deviation
  let exponent := -0.5 * z * z
  exponent - halfLogTau - d.deviation.log

end Normal
end StrategySearch
