import Lifecycle.Effect
import Lifecycle.Fault

/-! # Questions and outcomes

A question asks the outside for a value: it may fail, and it leaves effects either way, but it
changes nothing here. An outcome is what an operation on a state left: the state, a value or a
fault, and the effects. A fault does not take back what was done before it. -/

namespace Lifecycle

/-- A value asked from the outside, with the effects of asking. -/
structure Traced (α : Type) where
  value : Except Fault α
  effects : List Effect := []

namespace Traced

variable {α β : Type}

/-- A value that needs no asking. -/
def of (a : α) : Traced α := ⟨.ok a, []⟩

/-- No value. -/
def fail (f : Fault) : Traced α := ⟨.error f, []⟩

/-- Nothing but an effect. -/
def emit (e : Effect) : Traced Unit := ⟨.ok (), [e]⟩

/-- Asks on with the answer, unless there is none. -/
def andThen (x : Traced α) (f : α → Traced β) : Traced β :=
  match x.value with
  | .error fault => ⟨.error fault, x.effects⟩
  | .ok a => ⟨(f a).value, x.effects ++ (f a).effects⟩

instance : Monad Traced where
  pure := of
  bind := andThen

/-- Answers in place of the faults that `handler` knows. -/
def recover (x : Traced α) (handler : Fault → Option α) : Traced α :=
  match x.value with
  | .ok _ => x
  | .error fault =>
    match handler fault with
    | some a => ⟨.ok a, x.effects⟩
    | none => x

@[simp] theorem value_pure (a : α) : (pure a : Traced α).value = .ok a := rfl

@[simp] theorem effects_pure (a : α) : (pure a : Traced α).effects = [] := rfl

@[simp] theorem value_bind (x : Traced α) (f : α → Traced β) :
    (x >>= f).value = x.value >>= fun a => (f a).value := by
  show (x.andThen f).value = _
  unfold andThen
  cases x.value <;> rfl

theorem value_recover (x : Traced α) (handler : Fault → Option α) :
    (x.recover handler).value =
      match x.value with
      | .ok a => .ok a
      | .error fault => (handler fault).elim (.error fault) .ok := by
  unfold recover
  split
  · rename_i hvalue
    rw [hvalue]
  · rename_i fault hvalue
    cases hanswer : handler fault with
    | none => exact hvalue
    | some a => rfl

end Traced

/-- What an operation left. -/
structure Outcome (σ α : Type) where
  state : σ
  value : Except Fault α
  effects : List Effect := []

end Lifecycle
