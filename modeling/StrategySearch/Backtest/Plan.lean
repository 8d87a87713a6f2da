import StrategySearch.Calendar.Date
import StrategySearch.Decimal.Text
import StrategySearch.Failure

/-! What every backtest of a search has in common, and which symbols each fold takes. -/

set_option autoImplicit false

namespace StrategySearch

def symbolBound : Nat := UInt32.size

/-- The symbols from `skip` on, `take` of them. -/
structure SymbolSlice where
  skip : Nat
  take : Nat
  deriving DecidableEq, Repr

def symbol? (n : Nat) : Option Nat := if n < symbolBound then some n else none

namespace SymbolSlice

def ofFold? (skip take index : Nat) : Option SymbolSlice := do
  let index ← symbol? index
  let share ← symbol? (take * index)
  let skip ← symbol? (share + skip)
  let _ ← symbol? (skip + take)
  return ⟨skip, take⟩

theorem ofFold?_eq_ite (skip take index : Nat) :
    ofFold? skip take index =
      if index < symbolBound ∧ take * index + skip + take < symbolBound then
        some ⟨take * index + skip, take⟩
      else none := by
  by_cases inside : index < symbolBound ∧ take * index + skip + take < symbolBound
  · rw [if_pos inside]
    obtain ⟨few, ends⟩ := inside
    have share : take * index < symbolBound := by omega
    have begins : take * index + skip < symbolBound := by omega
    simp [ofFold?, symbol?, few, ends, share, begins]
  · rw [if_neg inside]
    by_cases few : index < symbolBound
    · have ends : ¬ take * index + skip + take < symbolBound := fun ends => inside ⟨few, ends⟩
      by_cases share : take * index < symbolBound
      · by_cases begins : take * index + skip < symbolBound <;>
          simp [ofFold?, symbol?, few, ends, share, begins]
      · simp [ofFold?, symbol?, few, share]
    · simp [ofFold?, symbol?, few]

/-- How many successive folds have symbols. Empty slices are limited by the number of folds. -/
def capacity (skip take : Nat) : Nat :=
  if take = 0 then (if skip < symbolBound then symbolBound else 0)
  else (symbolBound - 1 - skip) / take

theorem ofFold?_isSome_iff (skip take index : Nat) :
    (ofFold? skip take index).isSome ↔ index < capacity skip take := by
  have fits : (ofFold? skip take index).isSome ↔
      index < symbolBound ∧ take * index + skip + take < symbolBound := by
    rw [ofFold?_eq_ite]
    split <;> simp_all
  rw [fits, capacity]
  by_cases empty : take = 0
  · subst empty
    rw [if_pos rfl, Nat.zero_mul, Nat.zero_add, Nat.add_zero]
    split <;> omega
  · have bound : 0 < symbolBound := by decide
    have share : (index + 1) * take = take * index + take := by
      rw [Nat.add_mul, Nat.one_mul, Nat.mul_comm]
    have grows : index + 1 ≤ take * index + take :=
      share ▸ Nat.le_mul_of_pos_right _ (Nat.pos_of_ne_zero empty)
    have within : index < (symbolBound - 1 - skip) / take ↔
        take * index + take ≤ symbolBound - 1 - skip := by
      rw [← share]
      exact Nat.le_div_iff_mul_le (Nat.pos_of_ne_zero empty)
    rw [if_neg empty, within]
    omega

end SymbolSlice

/-- The last symbol bound that can be named stands for all beyond it. -/
def SymbolSlice.stop (slice : SymbolSlice) : Nat := min (slice.skip + slice.take) (symbolBound - 1)

structure FoldPlan where
  period : Period
  initialCash : Decimal
  symbolsPerFold : Nat
  symbolSkip : Nat
  foldCount : Nat
  usePredictor : Bool
  predictionError : Float
  penalty : Decimal

def FoldPlan.capacity (plan : FoldPlan) : Nat :=
  SymbolSlice.capacity plan.symbolSkip plan.symbolsPerFold

def FoldPlan.slice (plan : FoldPlan) (index : Nat) : Except Failure SymbolSlice :=
  match SymbolSlice.ofFold? plan.symbolSkip plan.symbolsPerFold index with
  | some slice => .ok slice
  | none => .error (.configuration
      s!"fold {index} of {plan.symbolsPerFold} symbols after skipping {plan.symbolSkip} is outside the symbol range")

end StrategySearch
