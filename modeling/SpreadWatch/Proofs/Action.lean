import Mathlib
import SpreadWatch.Proofs.Failure
import SpreadWatch.WaterMark

/-!
Running actions. An action ends with an answer or a failure, and leaves a state in both cases. Two
properties of actions are closed under everything they are put together from: to keep some view of
the state however they end, and to fail with certain failures only.
-/

namespace SpreadWatch.Action

variable {σ τ α β : Type}

/-- How an action ends from a state, and the state that it leaves. -/
def ending (action : Action σ α) (state : σ) : Except Failure α × σ := action.run state

@[simp] theorem ending_pure (a : α) (s : σ) : ending (pure a : Action σ α) s = (.ok a, s) := rfl

@[simp] theorem ending_throw (failure : Failure) (s : σ) :
    ending (throw failure : Action σ α) s = (.error failure, s) := rfl

@[simp] theorem ending_get (s : σ) : ending (get : Action σ σ) s = (.ok s, s) := rfl

@[simp] theorem ending_set (t s : σ) : ending (set t : Action σ PUnit) s = (.ok ⟨⟩, t) := rfl

@[simp] theorem ending_modify (f : σ → σ) (s : σ) :
    ending (modify f : Action σ PUnit) s = (.ok ⟨⟩, f s) := rfl

@[simp] theorem ending_lift (result : Except Failure α) (s : σ) :
    ending (liftM result : Action σ α) s = (result, s) := rfl

theorem ending_bind (x : Action σ α) (f : α → Action σ β) (s : σ) :
    ending (x >>= f) s =
      match ending x s with
      | (.ok a, t) => ending (f a) t
      | (.error failure, t) => (.error failure, t) := by
  have opened : ending (x >>= f) s = ExceptT.bindCont f (ending x s).1 (ending x s).2 := rfl
  rw [opened]
  rcases ending x s with ⟨failure | a, t⟩ <;> rfl

theorem ending_bind_ok {x : Action σ α} {s t : σ} {a : α} (first : ending x s = (.ok a, t))
    (f : α → Action σ β) : ending (x >>= f) s = ending (f a) t := by
  rw [ending_bind, first]

theorem ending_bind_error {x : Action σ α} {s t : σ} {failure : Failure}
    (first : ending x s = (.error failure, t)) (f : α → Action σ β) :
    ending (x >>= f) s = (.error failure, t) := by
  rw [ending_bind, first]

theorem ending_try_catch (x : Action σ α) (handler : Failure → Action σ α) (s : σ) :
    ending (tryCatch x handler) s =
      match ending x s with
      | (.ok a, t) => (.ok a, t)
      | (.error failure, t) => ending (handler failure) t := by
  cases ended : ending x s with
  | mk result t =>
      simp only [ending, ExceptT.run] at ended
      simp only [ending, tryCatch, tryCatchThe, MonadExceptOf.tryCatch, ExceptT.tryCatch,
        ExceptT.run, ExceptT.mk, bind, StateT.bind, ended]
      cases result <;> rfl

theorem ending_on (part : σ → τ) (put : τ → σ → σ) (x : Action τ α) (s : σ) :
    ending (x.on part put) s = ((ending x (part s)).1, put (ending x (part s)).2 s) := rfl

theorem ending_for_cons (f : β → Action σ PUnit) (b : β) (rest : List β) (s : σ) :
    ending ((b :: rest).forM f) s = ending (f b >>= fun _ => rest.forM f) s := rfl

theorem ending_for_append (f : β → Action σ PUnit) (first rest : List β) (s : σ) :
    ending ((first ++ rest).forM f) s = ending (first.forM f >>= fun _ => rest.forM f) s := by
  simp only [List.forM_eq_forM, List.forM_append]

/-! ### What an action keeps -/

/-- An action leaves a view of the state as it was, however it ends. -/
def Keeps (view : σ → τ) (x : Action σ α) : Prop := ∀ s, view (ending x s).2 = view s

namespace Keeps

variable {view : σ → τ}

theorem pure (a : α) : Keeps view (Pure.pure a : Action σ α) := fun _ => rfl

theorem throw (failure : Failure) : Keeps view (MonadExcept.throw failure : Action σ α) :=
  fun _ => rfl

theorem get : Keeps view (MonadState.get : Action σ σ) := fun _ => rfl

theorem lift (result : Except Failure α) : Keeps view (liftM result : Action σ α) := fun _ => rfl

theorem modify {f : σ → σ} (kept : ∀ s, view (f s) = view s) :
    Keeps view (modify f : Action σ PUnit) := kept

theorem bind {x : Action σ α} {f : α → Action σ β} (first : Keeps view x)
    (second : ∀ a, Keeps view (f a)) : Keeps view (x >>= f) := by
  intro s
  rw [ending_bind]
  have start := first s
  generalize ending x s = ended at start ⊢
  obtain ⟨failure | a, t⟩ := ended
  · exact start
  · exact (second a t).trans start

theorem tryCatch {x : Action σ α} {handler : Failure → Action σ α} (first : Keeps view x)
    (second : ∀ failure, Keeps view (handler failure)) :
    Keeps view (MonadExcept.tryCatch x handler) := by
  intro s
  rw [ending_try_catch]
  have start := first s
  generalize ending x s = ended at start ⊢
  obtain ⟨failure | a, t⟩ := ended
  · exact (second failure t).trans start
  · exact start

theorem read {f : σ → Action σ α} (kept : ∀ s, view (ending (f s) s).2 = view s) :
    Keeps view (MonadState.get >>= f) := kept

theorem mapM {f : β → Action σ α} (each : ∀ b, Keeps view (f b)) (items : List β) :
    Keeps view (items.mapM f) := by
  induction items with
  | nil => exact pure []
  | cons item rest induction =>
      rw [List.mapM_cons]
      exact bind (each item) fun a => bind induction fun others => pure (a :: others)

end Keeps

/-! ### How an action fails -/

def Fails (allowed : Failure → Prop) (x : Action σ α) : Prop :=
  ∀ s failure, (ending x s).1 = .error failure → allowed failure

namespace Fails

variable {allowed : Failure → Prop}

theorem pure (a : α) : Fails allowed (Pure.pure a : Action σ α) := by
  intro s failure ended
  cases ended

theorem modify (f : σ → σ) : Fails allowed (modify f : Action σ PUnit) := by
  intro s failure ended
  cases ended

theorem lift {result : Except Failure α} (inner : FailsWith allowed result) :
    Fails allowed (liftM result : Action σ α) := fun _ => inner

theorem bind {x : Action σ α} {f : α → Action σ β} (first : Fails allowed x)
    (second : ∀ a, Fails allowed (f a)) : Fails allowed (x >>= f) := by
  intro s failure ended
  rw [ending_bind] at ended
  have start := first s
  generalize ending x s = begun at start ended
  obtain ⟨early | a, t⟩ := begun
  · cases ended
    exact start _ rfl
  · exact second a t failure ended

theorem read {f : σ → Action σ α} (each : ∀ s, Fails allowed (f s)) :
    Fails allowed (MonadState.get >>= f) := fun s => each s s

theorem on {x : Action τ α} (inner : Fails allowed x) (part : σ → τ) (put : τ → σ → σ) :
    Fails allowed (x.on part put) := fun s => inner (part s)

theorem forM {f : β → Action σ PUnit} (each : ∀ b, Fails allowed (f b)) (items : List β) :
    Fails allowed (items.forM f) := by
  induction items with
  | nil => exact fun s failure ended => nomatch ended
  | cons item rest induction => exact bind (each item) fun _ => induction

theorem tryCatch {x : Action σ α} {handler : Failure → Action σ α}
    (second : ∀ failure, Fails allowed (handler failure)) :
    Fails allowed (MonadExcept.tryCatch x handler) := by
  intro s failure ended
  rw [ending_try_catch] at ended
  generalize ending x s = begun at ended
  obtain ⟨early | a, t⟩ := begun
  · exact second early t failure ended
  · cases ended

end Fails

end SpreadWatch.Action
