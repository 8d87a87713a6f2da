import StrategySearch.Propose.Basic
import StrategySearch.Random.Normal

/-! Parzen estimation: candidates are drawn around the good trials, and the one is proposed at
which the density of the good ones exceeds that of the others most. -/

set_option autoImplicit false

namespace StrategySearch

structure Observation where
  point : List Float
  objective : Float

structure Parzen (γ : Type) where
  source : γ
  /-- Proposals are random until so many trials can be used. -/
  startup : Nat

namespace Parzen

def defaultStartup : Nat := 10
def candidateCount : Nat := 24
def goodShare : Float := 0.25
def leastWidth : Float := 0.03

variable {γ : Type}

def start (source : γ) (startup : Nat) : Parzen γ := ⟨source, max startup 2⟩

/-- A finite objective and parameters within the space make a trial usable. -/
def observe (space : SearchSpace) : List Trial → Answer (List Observation)
  | [] => .ok []
  | trial :: rest =>
    if trial.objective.isFinite then do
      match ← space.toUnitPoint trial.parameters with
      | some point => return ⟨point, trial.objective⟩ :: (← observe space rest)
      | none => observe space rest
    else observe space rest

/-- Increases with the number, and with the sign of zero. -/
def orderKey (x : Float) : Int :=
  let bits := (x.toBits.toNat : Int)
  if bits < 0x8000000000000000 then bits else 0x7FFFFFFFFFFFFFFF - bits

def better (a b : Observation) : Bool := decide (orderKey b.objective ≤ orderKey a.objective)

/-- The share of the observations that is rounded up, with at least one on either side. -/
def goodCount (n : Nat) : Nat :=
  let share := FloatText.ceilWithin 0 (UInt64.size - 1) (goodShare * Float.ofNat n)
  max 1 (min share.toNat (max (n - 1) 1))

def split (observed : List Observation) : List Observation × List Observation :=
  let sorted := observed.mergeSort better
  (sorted.take (goodCount observed.length), sorted.drop (goodCount observed.length))

def kernelWidth (count : Nat) : Float :=
  let width := 0.5 / (Float.ofNat (max count 1)).sqrt
  if width < leastWidth then leastWidth else width

def kernel (center width : Float) : Answer Normal :=
  match Normal.make? center width with
  | some d => .ok d
  | none =>
    let centerText := FloatText.plain.text center
    let widthText := FloatText.plain.text width
    Answer.refuse (.configuration
      s!"invalid kernel ({centerText}, {widthText}): Bad distribution parameters")

def logKernel (center x : List Float) (width : Float) : Answer Float :=
  (center.zip x).foldlM (fun total (c, v) => do return total + (← kernel c width).logDensity v) 0.0

def negativeInfinity : Float := -1.0 / 0.0

/-- The logarithm of the mean of the exponentials, which are taken relative to the largest. -/
def logMean (terms : List Float) : Float :=
  let top := terms.foldl (fun a b => if a < b then b else a) negativeInfinity
  if top.isFinite then
    let sum := terms.foldl (fun total t => total + (t - top).exp) 0.0
    top + (sum / Float.ofNat terms.length).log
  else negativeInfinity

def logDensity (points : List Observation) (x : List Float) (width : Float) : Answer Float := do
  return logMean (← points.mapM fun p => logKernel p.point x width)

def drawNear [WordSource γ] (width center : Float) : Draw γ Float := do
  let d ← Draw.ofAnswer (kernel center width)
  let x ← d.draw
  return if x < 0.0 then 0.0 else if 1.0 < x then 1.0 else x

def drawCandidate [WordSource γ] (good bad : List Observation) : Draw γ (List Float × Float) := do
  let goodWidth := kernelWidth good.length
  let badWidth := kernelWidth bad.length
  let index ← Draw.below good.length
  let center := (good[index]?.map Observation.point).getD []
  let x ← center.mapM (drawNear goodWidth)
  let high ← Draw.ofAnswer (logDensity good x goodWidth)
  let low ← Draw.ofAnswer (logDensity bad x badWidth)
  return (x, high - low)

/-- The best of so many more candidates; the earliest of equals. -/
def drawBest [WordSource γ] (good bad : List Observation) :
    Nat → List Float × Float → Draw γ (List Float)
  | 0, best => return best.1
  | n + 1, best => do
    let next ← drawCandidate good bad
    drawBest good bad n (if best.2 < next.2 then next else best)

def draw [WordSource γ] (space : SearchSpace) (history : List Trial) (startup : Nat) :
    Draw γ ParameterSet := do
  let observed ← Draw.ofAnswer (observe space history)
  if observed.length < max startup 2 then space.sample
  else
    let (good, bad) := split observed
    let first ← drawCandidate good bad
    Draw.ofAnswer (space.fromUnitPoint (← drawBest good bad (candidateCount - 1) first))

def propose [WordSource γ] (space : SearchSpace) (history : List Trial) (s : Parzen γ) :
    Answer ParameterSet × Parzen γ :=
  let (candidate, source) := (draw space history s.startup).run.run s.source
  (candidate, { s with source := source })

end Parzen
end StrategySearch
