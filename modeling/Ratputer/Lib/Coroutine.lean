import Mathlib.Data.Option.Basic

/-!
# Computations that wait

A coroutine is a computation that asks its surroundings for one operation after another and goes on with each answer: an `async`
function cut at its await points and at its accesses to shared state. `Ret o` is the type of the answer to the operation `o`.
A handler answers operations from a state, or answers nothing, and then the coroutine waits where it is. `advance` runs a coroutine
until it is done or waits; `exec` is its result when it does not wait.
-/

/-- A computation over operations with answers of type `Ret`. -/
inductive Coroutine {Op : Type} (Ret : Op → Type) (α : Type) where
  | done (a : α)
  | ask (o : Op) (k : Ret o → Coroutine Ret α)

namespace Coroutine

variable {Op : Type} {Ret : Op → Type} {α β γ σ : Type}

/-- A coroutine followed by another that depends on its result. -/
def bind : Coroutine Ret α → (α → Coroutine Ret β) → Coroutine Ret β
  | done a, f => f a
  | ask o k, f => ask o fun r => (k r).bind f

instance : Monad (Coroutine Ret) where
  pure := done
  bind := bind

/-- One operation and its answer. -/
def perform (o : Op) : Coroutine Ret (Ret o) := ask o done

/-- A program that is done goes on with its value. -/
@[simp] theorem done_bind (a : α) (f : α → Coroutine Ret β) : done a >>= f = f a := rfl

/-- A program that asks goes on after the answer. -/
@[simp] theorem ask_bind (o : Op) (k : Ret o → Coroutine Ret α) (f : α → Coroutine Ret β) :
    ask o k >>= f = ask o fun r => k r >>= f := rfl

/-- Nothing more to do. -/
theorem bind_done (t : Coroutine Ret α) : t.bind done = t := by
  induction t with
  | done a => rfl
  | ask o k ih => exact congrArg (ask o) (funext ih)

/-- Binding is associative. -/
theorem bind_bind (t : Coroutine Ret α) (f : α → Coroutine Ret β) (g : β → Coroutine Ret γ) :
    (t.bind f).bind g = t.bind fun a => (f a).bind g := by
  induction t with
  | done a => rfl
  | ask o k ih => exact congrArg (ask o) (funext ih)

instance : LawfulMonad (Coroutine Ret) :=
  LawfulMonad.mk' _ bind_done (fun _ _ => rfl) bind_bind

variable (h : (o : Op) → σ → Option (Ret o × σ))

/-- Runs a coroutine until it is done or the handler does not answer; what is left of the coroutine, and the state. -/
def advance : Coroutine Ret α → σ → Coroutine Ret α × σ
  | done a, s => (done a, s)
  | ask o k, s =>
    match h o s with
    | none => (ask o k, s)
    | some (r, s') => advance (k r) s'

/-- The result of a coroutine and the state after it, if every operation is answered. -/
def exec : Coroutine Ret α → σ → Option (α × σ)
  | done a, s => some (a, s)
  | ask o k, s => (h o s).bind fun r => exec (k r.1) r.2

/-- A value leaves the state alone. -/
@[simp] theorem exec_pure (a : α) (s : σ) : exec h (pure a) s = some (a, s) := rfl

/-- One operation runs its handler. -/
@[simp] theorem exec_perform (o : Op) (s : σ) : exec h (perform o) s = h o s := by
  rw [perform, exec]
  rcases h o s with _ | r <;> rfl

/-- A sequence of two coroutines runs the first, then the second from where it ended. -/
@[simp] theorem exec_bind (t : Coroutine Ret α) (f : α → Coroutine Ret β) (s : σ) :
    exec h (t >>= f) s = (exec h t s).bind fun r => exec h (f r.1) r.2 := by
  induction t generalizing s with
  | done a => rfl
  | ask o k ih =>
    rw [ask_bind, exec, exec, Option.bind_assoc]
    congr 1
    funext r
    exact ih r.1 r.2

/-- A function of the value. -/
@[simp] theorem exec_map (t : Coroutine Ret α) (f : α → β) (s : σ) :
    exec h (f <$> t) s = (exec h t s).map fun r => (f r.1, r.2) := by
  rw [map_eq_pure_bind, exec_bind]
  rcases exec h t s with _ | r <;> rfl

/-- A conditional runs one of its branches. -/
@[simp] theorem exec_ite {c : Prop} [Decidable c] (t u : Coroutine Ret α) (s : σ) :
    exec h (if c then t else u) s = if c then exec h t s else exec h u s := by
  split <;> rfl

/-- A coroutine that runs to its end leaves nothing to run. -/
theorem advance_of_exec {t : Coroutine Ret α} {s s' : σ} {a : α} (he : exec h t s = some (a, s')) :
    advance h t s = (done a, s') := by
  induction t generalizing s with
  | done b =>
    obtain ⟨rfl, rfl⟩ := Prod.mk.inj (Option.some.inj he)
    rfl
  | ask o k ih =>
    rw [exec] at he
    obtain ⟨r, hr, hk⟩ := Option.bind_eq_some_iff.mp he
    rw [advance, hr]
    exact ih r.1 hk

/-- A coroutine that waits at its first operation stays as it is. -/
theorem advance_of_none {o : Op} {k : Ret o → Coroutine Ret α} {s : σ} (hn : h o s = none) :
    advance h (ask o k) s = (ask o k, s) := by
  rw [advance, hn]

end Coroutine
