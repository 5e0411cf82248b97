import BusCodec.Error

/-!
Computations that may fail and keep the state that they have reached when they
do.  A failed reader stands where it failed, and a failed generator keeps the
procedures it has registered.
-/

namespace BusCodec

/-- A computation over states of type `σ`.  It ends in a result or an error, and
in a state either way. -/
def Attempt (σ α : Type) : Type :=
  σ → Except Error α × σ

namespace Attempt

variable {σ α β : Type}

def result (value : α) : Attempt σ α :=
  fun state => (.ok value, state)

def fail (error : Error) : Attempt σ α :=
  fun state => (.error error, state)

/-- Runs a computation and goes on with its result.  An error ends the whole. -/
def andThen (first : Attempt σ α) (next : α → Attempt σ β) : Attempt σ β :=
  fun state =>
    match first state with
    | (.ok value, reached) => next value reached
    | (.error error, reached) => (.error error, reached)

instance : Monad (Attempt σ) where
  pure := result
  bind := andThen

def state : Attempt σ σ :=
  fun state => (.ok state, state)

def update (change : σ → σ) : Attempt σ Unit :=
  fun state => (.ok (), change state)

/-- A result or error that does not depend on the state. -/
def lift (outcome : Except Error α) : Attempt σ α :=
  fun state => (outcome, state)

/-- A result or grammar error that does not depend on the state. -/
def liftGrammar (outcome : Except GrammarError α) : Attempt σ α :=
  lift (outcome.mapError .grammar)

@[simp] theorem pure_apply (value : α) (s : σ) :
    (pure value : Attempt σ α) s = (.ok value, s) :=
  rfl

@[simp] theorem fail_apply (error : Error) (s : σ) :
    (fail error : Attempt σ α) s = (.error error, s) :=
  rfl

@[simp] theorem state_apply (s : σ) : (state : Attempt σ σ) s = (.ok s, s) :=
  rfl

@[simp] theorem update_apply (change : σ → σ) (s : σ) :
    update change s = (.ok (), change s) :=
  rfl

@[simp] theorem lift_apply (outcome : Except Error α) (s : σ) :
    lift outcome s = (outcome, s) :=
  rfl

theorem bind_apply (first : Attempt σ α) (next : α → Attempt σ β) (s : σ) :
    (first >>= next) s =
      match first s with
      | (.ok value, reached) => next value reached
      | (.error error, reached) => (.error error, reached) :=
  rfl

theorem bind_of_ok {first : Attempt σ α} {next : α → Attempt σ β} {s t : σ}
    {value : α} (h : first s = (.ok value, t)) :
    (first >>= next) s = next value t := by
  simp [bind_apply, h]

theorem bind_of_error {first : Attempt σ α} {next : α → Attempt σ β} {s t : σ}
    {error : Error} (h : first s = (.error error, t)) :
    (first >>= next) s = (.error error, t) := by
  simp [bind_apply, h]

@[simp] theorem lift_ok_bind (value : α) (next : α → Attempt σ β) :
    ((lift (.ok value) : Attempt σ α) >>= next) = next value :=
  rfl

@[simp] theorem liftGrammar_ok_bind (value : α) (next : α → Attempt σ β) :
    ((liftGrammar (.ok value) : Attempt σ α) >>= next) = next value :=
  rfl

theorem bind_eq_ok {first : Attempt σ α} {next : α → Attempt σ β} {s t : σ} {value : β}
    (h : (first >>= next) s = (.ok value, t)) :
    ∃ middle reached, first s = (.ok middle, reached) ∧ next middle reached = (.ok value, t) := by
  rw [bind_apply] at h
  cases hfirst : first s with
  | mk outcome reached =>
      cases outcome with
      | ok middle =>
          rw [hfirst] at h
          exact ⟨middle, reached, rfl, h⟩
      | error error =>
          rw [hfirst] at h
          cases h

theorem bind_eq_error {first : Attempt σ α} {next : α → Attempt σ β} {s t : σ} {error : Error}
    (h : (first >>= next) s = (.error error, t)) :
    first s = (.error error, t) ∨ ∃ middle reached,
      first s = (.ok middle, reached) ∧ next middle reached = (.error error, t) := by
  rw [bind_apply] at h
  cases hfirst : first s with
  | mk outcome reached =>
      rw [hfirst] at h
      cases outcome with
      | ok middle => exact .inr ⟨middle, reached, rfl, h⟩
      | error other =>
          cases h
          exact .inl rfl

theorem id_map_eq (x : Attempt σ α) : id <$> x = x := by
  funext s
  change (x >>= fun value => pure (id value)) s = x s
  rw [bind_apply]
  cases x s with
  | mk outcome reached => cases outcome <;> rfl

theorem bind_assoc_eq {γ : Type} (x : Attempt σ α) (f : α → Attempt σ β)
    (g : β → Attempt σ γ) : x >>= f >>= g = x >>= fun value => f value >>= g := by
  funext s
  simp only [bind_apply]
  cases x s with
  | mk outcome reached => cases outcome <;> rfl

instance : LawfulMonad (Attempt σ) :=
  LawfulMonad.mk' _ id_map_eq (fun _ _ => rfl) bind_assoc_eq

end Attempt

end BusCodec
