import Mathlib.Data.List.Forall2
import StrategySearch.Random.Source

/-! What a computation ends in: answers of one kind or stops of another. A draw ends so from every
state of its source. -/

set_option autoImplicit false

namespace StrategySearch

variable {α β γ : Type} {stops stops' : Stop → Prop} {P P' : α → Prop} {Q : β → Prop}
  {R : α → β → Prop}

theorem bind_eq_ok_iff {ε : Type} {x : Except ε α} {f : α → Except ε β} {b : β} :
    x >>= f = .ok b ↔ ∃ a, x = .ok a ∧ f a = .ok b := by
  cases x <;> simp [bind, Except.bind]

/-- What is read of a document does not depend on how another one would be refused. -/
theorem Failure.decode_eq_ok_iff {wording : Json.Wording} {read : Json → Option α}
    {context body : String} {a : α} :
    Failure.decode wording read context body = .ok a ↔ Json.decode? read body = some a := by
  unfold Failure.decode
  cases Json.decode? read body <;> simp

def Answer.Ends (stops : Stop → Prop) (answers : α → Prop) : Answer α → Prop
  | .ok a => answers a
  | .error stop => stops stop

namespace Answer.Ends

theorem mono {answer : Answer α} (ends : Ends stops P answer)
    (stopsToo : ∀ stop, stops stop → stops' stop) (answersToo : ∀ a, P a → P' a) :
    Ends stops' P' answer := by
  cases answer with
  | ok a => exact answersToo a ends
  | error stop => exact stopsToo stop ends

theorem known {answer : Answer α} (ends : Ends stops P answer) :
    Ends stops (fun a => answer = .ok a ∧ P a) answer := by
  cases answer with
  | ok a => exact ⟨rfl, ends⟩
  | error stop => exact ends

theorem bind {answer : Answer α} {f : α → Answer β} (first : Ends stops P answer)
    (rest : ∀ a, P a → Ends stops Q (f a)) : Ends stops Q (answer >>= f) := by
  cases answer with
  | ok a => exact rest a first
  | error stop => exact first

theorem mapM {f : α → Answer β} {as : List α} (each : ∀ a ∈ as, Ends stops (R a) (f a)) :
    Ends stops (List.Forall₂ R as) (as.mapM f) := by
  induction as with
  | nil => exact .nil
  | cons a as ih =>
    rw [List.mapM_cons]
    refine (each a List.mem_cons_self).bind fun b first => ?_
    refine (ih fun a' mem => each a' (List.mem_cons_of_mem a mem)).bind fun bs rest => ?_
    exact .cons first rest

theorem foldlM {f : β → α → Answer β} {b : β} {as : List α} (start : Q b)
    (each : ∀ b, Q b → ∀ a ∈ as, Ends stops Q (f b a)) : Ends stops Q (as.foldlM f b) := by
  induction as generalizing b with
  | nil => exact start
  | cons a as ih =>
    rw [List.foldlM_cons]
    refine (each b start a List.mem_cons_self).bind fun b' reached => ?_
    exact ih reached fun b inside a' mem => each b inside a' (List.mem_cons_of_mem a mem)

theorem orFault {found : Option α} (answers : ∀ a, found = some a → P a) :
    Ends (· = .fault) P (Answer.orFault found) := by
  cases found with
  | none => rfl
  | some a => exact answers a rfl

theorem isOk {answer : Answer α} (ends : Ends (fun _ => False) P answer) :
    ∃ a, answer = .ok a ∧ P a := by
  cases answer with
  | ok a => exact ⟨a, rfl, ends⟩
  | error stop => exact ends.elim

end Answer.Ends

theorem Draw.run_bind {γ : Type} {draw : Draw γ α} {f : α → Draw γ β} {source source' : γ} {a : α}
    (drawn : draw.run.run source = (.ok a, source')) :
    (draw >>= f).run.run source = (f a).run.run source' := by
  show (draw.run >>= ExceptT.bindCont f).run source = _
  rw [StateT.run_bind, drawn]
  rfl

def Draw.Ends (γ : Type) (stops : Stop → Prop) (answers : α → Prop) (draw : Draw γ α) : Prop :=
  ∀ source, Answer.Ends stops answers (draw.run.run source).1

namespace Draw.Ends

variable {draw : Draw γ α}

theorem pure {a : α} (answer : P a) : Ends γ stops P (Pure.pure a) :=
  fun _ => answer

theorem mono (ends : Ends γ stops P draw) (stopsToo : ∀ stop, stops stop → stops' stop)
    (answersToo : ∀ a, P a → P' a) : Ends γ stops' P' draw :=
  fun source => (ends source).mono stopsToo answersToo

theorem ofAnswer {answer : Answer α} (ends : Answer.Ends stops P answer) :
    Ends γ stops P (Draw.ofAnswer answer) :=
  fun _ => ends

theorem bind {f : α → Draw γ β} (first : Ends γ stops P draw)
    (rest : ∀ a, P a → Ends γ stops Q (f a)) : Ends γ stops Q (draw >>= f) := by
  intro source
  have drawn := first source
  show Answer.Ends stops Q ((draw.run >>= ExceptT.bindCont f).run source).1
  rw [StateT.run_bind]
  match found : draw.run.run source with
  | (.ok a, source') =>
    rw [found] at drawn
    exact rest a drawn source'
  | (.error stop, source') =>
    rw [found] at drawn
    exact drawn

theorem mapM {f : α → Draw γ β} {as : List α} (each : ∀ a ∈ as, Ends γ stops (R a) (f a)) :
    Ends γ stops (List.Forall₂ R as) (as.mapM f) := by
  induction as with
  | nil => exact pure .nil
  | cons a as ih =>
    rw [List.mapM_cons]
    refine (each a List.mem_cons_self).bind fun b first => ?_
    refine (ih fun a' mem => each a' (List.mem_cons_of_mem a mem)).bind fun bs rest => ?_
    exact pure (.cons first rest)

end Draw.Ends
end StrategySearch
