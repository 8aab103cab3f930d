import Mathlib.Data.List.Forall2

/-!
# Computations that may fail

What is known of the parts of a computation once it has succeeded, or once it has failed.  A
computation with a state keeps the state in both cases.
-/

namespace SchemaWire
namespace Fallible

variable {ε σ α β : Type}

theorem bind_ok (a : α) (f : α → Except ε β) : Except.ok a >>= f = f a := rfl

theorem bind_error (e : ε) (f : α → Except ε β) : Except.error e >>= f = .error e := rfl

theorem bind_eq_ok_iff {x : Except ε α} {f : α → Except ε β} {b : β} :
    x >>= f = .ok b ↔ ∃ a, x = .ok a ∧ f a = .ok b := by
  cases x with
  | ok a => simp [bind_ok]
  | error e => simp [bind_error]

theorem mapM_eq_ok_iff {f : α → Except ε β} {as : List α} {bs : List β} :
    as.mapM f = .ok bs ↔ List.Forall₂ (fun a b => f a = .ok b) as bs := by
  induction as generalizing bs with
  | nil => simp [pure, Except.pure, eq_comm]
  | cons a as ih =>
      simp only [List.mapM_cons, bind_eq_ok_iff, ih, List.forall₂_cons_left_iff]
      simp [pure, Except.pure, eq_comm]

theorem mapM_eq_some_iff {f : α → Option β} {as : List α} {bs : List β} :
    as.mapM f = some bs ↔ List.Forall₂ (fun a b => f a = some b) as bs := by
  induction as generalizing bs with
  | nil => simp [eq_comm]
  | cons a as ih =>
      simp only [List.mapM_cons, Option.bind_eq_bind, Option.bind_eq_some_iff, ih,
        List.forall₂_cons_left_iff]
      simp [eq_comm]

@[simp]
theorem pure_apply (a : α) (s : σ) : (pure a : EStateM ε σ α) s = .ok a s := rfl

@[simp]
theorem throw_apply (e : ε) (s : σ) : (throw e : EStateM ε σ α) s = .error e s := rfl

@[simp]
theorem get_apply (s : σ) : (get : EStateM ε σ σ) s = .ok s s := rfl

@[simp]
theorem set_apply (s t : σ) : (set t : EStateM ε σ Unit) s = .ok () t := rfl

@[simp]
theorem modify_apply (f : σ → σ) (s : σ) : (modify f : EStateM ε σ Unit) s = .ok () (f s) := rfl

variable {x : EStateM ε σ α} {f : α → EStateM ε σ β} {s t : σ}

theorem bind_apply_ok {a : α} (first : x s = .ok a t) : (x >>= f) s = f a t := by
  simp only [bind, EStateM.bind, first]

theorem bind_apply_error {e : ε} (first : x s = .error e t) : (x >>= f) s = .error e t := by
  simp only [bind, EStateM.bind, first]

theorem bind_apply_eq_ok {b : β} :
    (x >>= f) s = .ok b t ↔ ∃ a u, x s = .ok a u ∧ f a u = .ok b t := by
  constructor
  · intro done
    cases first : x s with
    | ok a u => exact ⟨a, u, rfl, (bind_apply_ok first).symm.trans done⟩
    | error e u => simp [bind_apply_error first] at done
  · rintro ⟨a, u, first, second⟩
    rw [bind_apply_ok first, second]

theorem bind_apply_eq_error {e : ε} :
    (x >>= f) s = .error e t ↔
      x s = .error e t ∨ ∃ a u, x s = .ok a u ∧ f a u = .error e t := by
  constructor
  · intro failed
    cases first : x s with
    | ok a u => exact .inr ⟨a, u, rfl, (bind_apply_ok first).symm.trans failed⟩
    | error fault u => exact .inl (by simpa [bind_apply_error first] using failed)
  · rintro (first | ⟨a, u, first, second⟩)
    · rw [bind_apply_error first]
    · rw [bind_apply_ok first, second]

/-! ## What stays -/

/-- A computation keeps a property of the state whether it succeeds or fails. -/
def Keeps (holds : σ → Prop) (x : EStateM ε σ α) : Prop :=
  ∀ s, holds s → (∀ a t, x s = .ok a t → holds t) ∧ (∀ e t, x s = .error e t → holds t)

variable {holds : σ → Prop}

theorem kept_of_ok {a : α} (done : x s = .ok a t) (held : holds t) :
    (∀ a t, x s = .ok a t → holds t) ∧ ∀ e t, x s = .error e t → holds t := by
  simp [done, held]

theorem kept_of_error {e : ε} (failed : x s = .error e t) (held : holds t) :
    (∀ a t, x s = .ok a t → holds t) ∧ ∀ e t, x s = .error e t → holds t := by
  simp [failed, held]

theorem keeps_of_unchanged (unchanged : ∀ s, (∃ a, x s = .ok a s) ∨ ∃ e, x s = .error e s) :
    Keeps holds x := by
  intro s held
  rcases unchanged s with ⟨a, done⟩ | ⟨e, failed⟩
  · exact kept_of_ok done held
  · exact kept_of_error failed held

theorem keeps_pure (a : α) : Keeps holds (pure a : EStateM ε σ α) := by
  intro s held
  exact kept_of_ok rfl held

theorem keeps_throw (e : ε) : Keeps holds (throw e : EStateM ε σ α) := by
  intro s held
  exact kept_of_error rfl held

theorem Keeps.bind (first : Keeps holds x) (second : ∀ a, Keeps holds (f a)) :
    Keeps holds (x >>= f) := by
  intro s held
  obtain ⟨kept, lost⟩ := first s held
  constructor
  · intro b t done
    obtain ⟨a, u, opened, closed⟩ := bind_apply_eq_ok.1 done
    exact (second a u (kept a u opened)).1 b t closed
  · intro e t failed
    rcases bind_apply_eq_error.1 failed with opened | ⟨a, u, opened, closed⟩
    · exact lost e t opened
    · exact (second a u (kept a u opened)).2 e t closed

theorem keeps_get_bind {f : σ → EStateM ε σ β} (next : ∀ s, holds s → Keeps holds (f s)) :
    Keeps holds (get >>= f) := by
  intro s held
  rw [bind_apply_ok (get_apply s)]
  exact next s held s held

end Fallible
end SchemaWire
