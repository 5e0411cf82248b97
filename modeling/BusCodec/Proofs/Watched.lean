import BusCodec.Attempt

/-!
Computations that are watched while they run.  A watched computation is stopped where
a machine would trap, or where it goes on for longer than it is allowed to: at a number
that does not fit a word, at an index that is out of bounds, at one more round of a loop.
Nothing that stops it can be seen in the computation itself, so that it is worth showing
that the two come to the same.
-/

namespace BusCodec

/-- A computation that ends in a result or an error, and in a state either way, unless
it is stopped. -/
def Watched (σ α : Type) : Type :=
  σ → Option (Except Error α × σ)

namespace Watched

variable {σ α β : Type}

/-- A computation in which there is nothing to stop. -/
def free (attempt : Attempt σ α) : Watched σ α :=
  fun state => some (attempt state)

def stop : Watched σ α :=
  fun _ => none

/-- Goes on only if the condition holds. -/
def require (condition : Prop) [Decidable condition] : Watched σ Unit :=
  fun state => if condition then some (.ok (), state) else none

/-- Runs a computation and goes on with its result.  An error ends the whole. -/
def andThen (first : Watched σ α) (next : α → Watched σ β) : Watched σ β :=
  fun state =>
    match first state with
    | some (.ok value, reached) => next value reached
    | some (.error error, reached) => some (.error error, reached)
    | none => none

instance : Monad (Watched σ) where
  pure value := free (pure value)
  bind := andThen

variable {first : Watched σ α} {next : α → Watched σ β} {s reached : σ}

theorem bind_of_ok {value : α} (h : first s = some (.ok value, reached)) :
    (first >>= next) s = next value reached := by
  change andThen first next s = _
  rw [andThen, h]

theorem bind_of_error {error : Error} (h : first s = some (.error error, reached)) :
    (first >>= next) s = some (.error error, reached) := by
  change andThen first next s = _
  rw [andThen, h]

theorem require_bind {condition : Prop} [Decidable condition] (h : condition)
    (next : Unit → Watched σ α) : (require condition >>= next) = next () := by
  funext s
  apply bind_of_ok
  rw [require, if_pos h]

/-- Two computations in a row are not stopped if neither of them is. -/
theorem bind_eq_some {attempt : Attempt σ α} {more : α → Attempt σ β}
    (hfirst : first s = some (attempt s))
    (hnext : ∀ value reached, attempt s = (.ok value, reached) →
      next value reached = some (more value reached)) :
    (first >>= next) s = some ((attempt >>= more) s) := by
  cases hrun : attempt s with
  | mk outcome reached =>
      rw [hrun] at hfirst
      cases outcome with
      | ok value =>
          rw [bind_of_ok hfirst, Attempt.bind_of_ok hrun]
          exact hnext value reached hrun
      | error error => rw [bind_of_error hfirst, Attempt.bind_of_error hrun]

end Watched

end BusCodec
