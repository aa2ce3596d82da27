import Mathlib.Logic.Basic
import Mathlib.Algebra.BigOperators.Group.List.Basic

/-!
# Peeling `Except` computations

A successful `do` block in `Except` succeeded at every step. These lemmas
take such a block apart one bind at a time, so a proof about a fallible
function never unfolds the monad. `ensure` is the `ensure!` guard of the
runtime: it fails with the given error unless its condition holds, and it
sequences with a bind, so the rest of a block is not copied into its two
branches. `Option.okOr` is `ok_or`, which turns a missing value into an
error.

The loops of the runtime are folds; a property that each iteration keeps
holds at the end of the loop (`foldlM_invariant`, `foldl_invariant`), and a
quantity that every iteration raises by an amount of its element is raised by
their sum (`foldlM_measure`, `foldl_measure`).
-/

namespace Except

variable {ε ε' α β : Type}

@[simp] theorem bind_eq_ok {x : Except ε α} {f : α → Except ε β} {b : β} :
    x >>= f = .ok b ↔ ∃ a, x = .ok a ∧ f a = .ok b := by
  cases x with
  | error e => simp [bind, Except.bind]
  | ok a => simp [bind, Except.bind]

@[simp] theorem map_eq_ok {f : α → β} {x : Except ε α} {b : β} :
    f <$> x = .ok b ↔ ∃ a, x = .ok a ∧ f a = b := by
  cases x <;> simp [Functor.map, Except.map]

@[simp] theorem map_eq_error {f : α → β} {x : Except ε α} {e : ε} :
    f <$> x = .error e ↔ x = .error e := by
  cases x <;> simp [Functor.map, Except.map]

@[simp] theorem ok_bind (a : α) (f : α → Except ε β) : (Except.ok a >>= f) = f a := rfl

@[simp] theorem pure_eq_ok {a b : α} : (pure a : Except ε α) = .ok b ↔ a = b := by
  simp [pure, Except.pure]

@[simp] theorem pure_ne_error {a : α} {e : ε} : (pure a : Except ε α) ≠ .error e := by
  simp [pure, Except.pure]

@[simp] theorem mapError_eq_ok {f : ε → ε'} {x : Except ε α} {a : α} :
    x.mapError f = .ok a ↔ x = .ok a := by
  cases x <;> simp [Except.mapError]

@[simp] theorem mapError_eq_error {f : ε → ε'} {x : Except ε α} {e' : ε'} :
    x.mapError f = .error e' ↔ ∃ e, x = .error e ∧ f e = e' := by
  cases x <;> simp [Except.mapError]

@[simp] theorem bind_eq_error {x : Except ε α} {f : α → Except ε β} {e : ε} :
    x >>= f = .error e ↔ x = .error e ∨ ∃ a, x = .ok a ∧ f a = .error e := by
  cases x with
  | error e' => simp [bind, Except.bind]
  | ok a => simp [bind, Except.bind]

@[simp] theorem throw_eq_error {e e' : ε} : (throw e : Except ε α) = .error e' ↔ e = e' := by
  simp [throw, throwThe, MonadExceptOf.throw]

@[simp] theorem throw_ne_ok {e : ε} {a : α} : (throw e : Except ε α) ≠ .ok a := by
  simp [throw, throwThe, MonadExceptOf.throw]

@[simp] theorem map_ok_iff {f : α → β} {x : Except ε α} {b : β} :
    x.map f = .ok b ↔ ∃ a, x = .ok a ∧ f a = b := by
  cases x <;> simp [Except.map]

@[simp] theorem toOption_eq_some {x : Except ε α} {a : α} : x.toOption = some a ↔ x = .ok a := by
  cases x <;> simp [Except.toOption]

/-- The error of a failed computation. -/
def error? : Except ε α → Option ε
  | .error e => some e
  | .ok _ => none

@[simp] theorem error?_eq_some {x : Except ε α} {e : ε} : x.error? = some e ↔ x = .error e := by
  cases x <;> simp [error?]

end Except

section OkOr

variable {ε α : Type}

/-- `ok_or(e)`: the value, or the error `e` where there is none. -/
def Option.okOr (o : Option α) (e : ε) : Except ε α :=
  match o with
  | some a => .ok a
  | none => .error e

@[simp] theorem Option.okOr_eq_ok {o : Option α} {e : ε} {a : α} : o.okOr e = .ok a ↔ o = some a := by
  cases o <;> simp [Option.okOr]

@[simp] theorem Option.okOr_eq_error {o : Option α} {e e' : ε} :
    o.okOr e = .error e' ↔ o = none ∧ e = e' := by
  cases o <;> simp [Option.okOr]

end OkOr

section Ensure

variable {ε : Type}

/-- `ensure!(c, e)`: fail with `e` unless `c` holds. -/
def ensure (c : Prop) [Decidable c] (e : ε) : Except ε Unit :=
  if c then .ok () else .error e

@[simp] theorem ensure_eq_ok {c : Prop} [Decidable c] {e : ε} {u : Unit} :
    ensure c e = .ok u ↔ c := by
  unfold ensure
  split <;> simp_all

@[simp] theorem ensure_eq_error {c : Prop} [Decidable c] {e e' : ε} :
    ensure c e = .error e' ↔ ¬c ∧ e = e' := by
  unfold ensure
  split <;> simp_all

end Ensure

section Loops

variable {ε α β : Type}

/-- A property that every iteration of a fallible loop keeps holds when the
loop succeeds. -/
theorem foldlM_invariant {f : β → α → Except ε β} (motive : β → Prop) {l : List α}
    {init result : β} (start : motive init)
    (step : ∀ b a b', a ∈ l → motive b → f b a = .ok b' → motive b')
    (ran : l.foldlM f init = .ok result) : motive result := by
  induction l generalizing init with
  | nil =>
    simp only [List.foldlM_nil, Except.pure_eq_ok] at ran
    exact ran ▸ start
  | cons a rest ih =>
    simp only [List.foldlM_cons, Except.bind_eq_ok] at ran
    obtain ⟨next, first, ranRest⟩ := ran
    exact ih (step init a next List.mem_cons_self start first)
      (fun b a' b' mem => step b a' b' (List.mem_cons_of_mem a mem)) ranRest

/-- A loop establishes `done` once it reaches the element `a`: `waiting`
holds until the iteration at `a`, which establishes `done`, and every later
iteration keeps `done`. -/
theorem foldlM_establishes {f : β → α → Except ε β} (waiting done : β → Prop) {a : α}
    {l : List α} {init result : β} (member : a ∈ l) (start : waiting init)
    (wait : ∀ b x b', x ≠ a → waiting b → f b x = .ok b' → waiting b')
    (arrive : ∀ b b', waiting b → f b a = .ok b' → done b')
    (stay : ∀ b x b', done b → f b x = .ok b' → done b')
    (ran : l.foldlM f init = .ok result) : done result := by
  induction l generalizing init with
  | nil => cases member
  | cons x rest ih =>
    simp only [List.foldlM_cons, Except.bind_eq_ok] at ran
    obtain ⟨next, first, ranRest⟩ := ran
    by_cases here : x = a
    · -- the iteration at `a` establishes `done`, and the rest of the loop keeps it
      subst here
      exact foldlM_invariant done (arrive init next start first)
        (fun b x' b' _ kept => stay b x' b' kept) ranRest
    · have later : a ∈ rest := by
        rcases List.mem_cons.mp member with same | later
        · exact absurd same.symm here
        · exact later
      exact ih later (wait init x next here start first) ranRest

/-- A `mapM` in which every call succeeds succeeds with the results, in order. -/
theorem mapM_eq_ok_map {f : α → Except ε β} {g : α → β} :
    ∀ {l : List α}, (∀ a ∈ l, f a = .ok (g a)) → l.mapM f = .ok (l.map g)
  | [], _ => rfl
  | a :: l, succeeds => by
    rw [List.mapM_cons, succeeds a List.mem_cons_self,
      mapM_eq_ok_map (fun b mem => succeeds b (List.mem_cons_of_mem a mem))]
    rfl

/-- A property that every iteration of a loop keeps holds at its end. -/
theorem foldl_invariant {f : β → α → β} (motive : β → Prop) {l : List α} {init : β}
    (start : motive init) (step : ∀ b a, a ∈ l → motive b → motive (f b a)) :
    motive (l.foldl f init) := by
  induction l generalizing init with
  | nil => exact start
  | cons a rest ih =>
    exact ih (step init a List.mem_cons_self start)
      (fun b a' mem => step b a' (List.mem_cons_of_mem a mem))

/-- A fallible loop in which the iteration at `a` adds `c a` to `measure` adds
the sum of the `c a` when it succeeds. -/
theorem foldlM_measure {M : Type} [AddMonoid M] {f : β → α → Except ε β} (measure : β → M)
    (c : α → M) {l : List α} {init result : β}
    (step : ∀ b a b', a ∈ l → f b a = .ok b' → measure b' = measure b + c a)
    (ran : l.foldlM f init = .ok result) : measure result = measure init + (l.map c).sum := by
  induction l generalizing init with
  | nil =>
    simp only [List.foldlM_nil, Except.pure_eq_ok] at ran
    rw [← ran, List.map_nil, List.sum_nil, add_zero]
  | cons a rest ih =>
    simp only [List.foldlM_cons, Except.bind_eq_ok] at ran
    obtain ⟨next, first, ranRest⟩ := ran
    have later := ih (fun b a' b' mem => step b a' b' (List.mem_cons_of_mem a mem)) ranRest
    rw [later, step init a next List.mem_cons_self first, List.map_cons, List.sum_cons,
      add_assoc]

/-- A loop in which the iteration at `a` adds `c a` to `measure` adds the sum
of the `c a`. -/
theorem foldl_measure {M : Type} [AddMonoid M] {f : β → α → β} (measure : β → M) (c : α → M)
    {l : List α} {init : β} (step : ∀ b a, a ∈ l → measure (f b a) = measure b + c a) :
    measure (l.foldl f init) = measure init + (l.map c).sum := by
  induction l generalizing init with
  | nil => rw [List.foldl_nil, List.map_nil, List.sum_nil, add_zero]
  | cons a rest ih =>
    rw [List.foldl_cons, ih (fun b a' mem => step b a' (List.mem_cons_of_mem a mem)),
      step init a List.mem_cons_self, List.map_cons, List.sum_cons, add_assoc]

end Loops
