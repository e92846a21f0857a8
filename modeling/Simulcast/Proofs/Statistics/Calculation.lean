import Mathlib.Algebra.BigOperators.Group.List.Basic
import Mathlib.Algebra.GroupWithZero.Nat
/-!
# Calculations

A calculation is a value together with the operations on 64-bit words that led to it, so that one
can say of each of them that it overflows, or divides by zero.  `Calculation.Avoids` says that no
operation is of such a kind, and it goes by the pieces that a calculation is made of
(`avoids_bind`, `avoids_each`).

Sums are added up from the left, and they grow.  So none of them overflows iff the last one does
not (`Calculation.avoids_sum`), and then all are exact (`toNat_foldl_add`).
-/

namespace Simulcast

/-- An operation on words of 64 bits. -/
inductive Calculation.Step where
  | add (a b : UInt64)
  | mul (a b : UInt64)
  | div (a b : UInt64)
  deriving DecidableEq, Repr

/-- A value and the steps that led to it. -/
structure Calculation (α : Type) where
  value : α
  steps : List Calculation.Step
  deriving Repr

namespace Calculation

variable {α β : Type}

/-- What a step gives.  Of a sum or a product it keeps the last 64 bits. -/
def Step.result : Step → UInt64
  | .add a b => a + b
  | .mul a b => a * b
  | .div a b => a / b

/-- The sum or product has more than 64 bits. -/
def Step.Overflows : Step → Prop
  | .add a b => 2 ^ 64 ≤ a.toNat + b.toNat
  | .mul a b => 2 ^ 64 ≤ a.toNat * b.toNat
  | .div _ _ => False

def Step.DividesByZero : Step → Prop
  | .div _ b => b = 0
  | _ => False

instance : DecidablePred Step.Overflows
  | .add a b => inferInstanceAs (Decidable (2 ^ 64 ≤ a.toNat + b.toNat))
  | .mul a b => inferInstanceAs (Decidable (2 ^ 64 ≤ a.toNat * b.toNat))
  | .div _ _ => inferInstanceAs (Decidable False)

instance : Monad Calculation where
  pure a := ⟨a, []⟩
  bind c f := ⟨(f c.value).value, c.steps ++ (f c.value).steps⟩

def take (s : Step) : Calculation UInt64 := ⟨s.result, [s]⟩

/-- The same calculation for each of some things. -/
def each (f : α → Calculation β) (xs : List α) : Calculation (List β) :=
  ⟨xs.map fun x => (f x).value, xs.flatMap fun x => (f x).steps⟩

/-- No step of the calculation is of some kind. -/
def Avoids (c : Calculation α) (P : Step → Prop) : Prop := ∀ s ∈ c.steps, ¬ P s

instance {P : Step → Prop} [DecidablePred P] (c : Calculation α) : Decidable (c.Avoids P) :=
  inferInstanceAs (Decidable (∀ s ∈ c.steps, ¬ P s))

variable {P : Step → Prop}

@[simp] theorem avoids_pure (a : α) : (pure a : Calculation α).Avoids P :=
  fun _ h => absurd h List.not_mem_nil

@[simp] theorem avoids_take (s : Step) : (take s).Avoids P ↔ ¬ P s := List.forall_mem_singleton

@[simp] theorem avoids_bind (c : Calculation α) (f : α → Calculation β) :
    (c >>= f).Avoids P ↔ c.Avoids P ∧ (f c.value).Avoids P := List.forall_mem_append

@[simp] theorem avoids_each (f : α → Calculation β) (xs : List α) :
    (each f xs).Avoids P ↔ ∀ x ∈ xs, (f x).Avoids P := List.forall_mem_flatMap

theorem value_foldlM (f : β → α → Calculation β) (b : β) (xs : List α) :
    (xs.foldlM f b).value = xs.foldl (fun b x => (f b x).value) b := by
  induction xs generalizing b with
  | nil => rfl
  | cons x xs ih => exact ih (f b x).value

/-- What no round of a loop does, the loop does not do. -/
theorem avoids_foldlM {f : β → α → Calculation β} (h : ∀ b x, (f b x).Avoids P) (b : β)
    (xs : List α) : (xs.foldlM f b).Avoids P := by
  induction xs generalizing b with
  | nil => exact avoids_pure b
  | cons x xs ih => exact (avoids_bind _ _).mpr ⟨h b x, ih _⟩

end Calculation

/-! ### Sums -/

/-- The exact sum of words. -/
def exactSum (words : List UInt64) : Nat := (words.map UInt64.toNat).sum

@[simp] theorem exactSum_nil : exactSum [] = 0 := rfl

@[simp] theorem exactSum_cons (w : UInt64) (words : List UInt64) :
    exactSum (w :: words) = w.toNat + exactSum words := rfl

theorem toNat_add_of_fits {a b : UInt64} (h : a.toNat + b.toNat < 2 ^ 64) :
    (a + b).toNat = a.toNat + b.toNat := by
  rw [UInt64.toNat_add, Nat.mod_eq_of_lt h]

theorem toNat_foldl_add {first : UInt64} {words : List UInt64}
    (h : first.toNat + exactSum words < 2 ^ 64) :
    (words.foldl (· + ·) first).toNat = first.toNat + exactSum words := by
  induction words generalizing first with
  | nil => rfl
  | cons w words ih =>
    rw [exactSum_cons] at h ⊢
    have hfirst : (first + w).toNat = first.toNat + w.toNat := toNat_add_of_fits (by omega)
    rw [List.foldl_cons, ih (by omega), hfirst, Nat.add_assoc]

/-- Numbers below the limit are summed as they are. -/
theorem exactSum_toUInt64 {sizes : List Nat} (h : ∀ n ∈ sizes, n < 2 ^ 64) :
    exactSum (sizes.map Nat.toUInt64) = sizes.sum := by
  rw [exactSum, List.map_map]
  refine congrArg List.sum ((List.map_congr_left fun n hn => ?_).trans (List.map_id _))
  exact UInt64.toNat_ofNat_of_lt' (h n hn)

namespace Calculation

/-- Adds words to a first one, from the left. -/
def sum (first : UInt64) (words : List UInt64) : Calculation UInt64 :=
  words.foldlM (fun a b => take (.add a b)) first

theorem value_sum (first : UInt64) (words : List UInt64) :
    (sum first words).value = words.foldl (· + ·) first := value_foldlM ..

theorem avoids_sum_cons {P : Step → Prop} (first w : UInt64) (words : List UInt64) :
    (sum first (w :: words)).Avoids P
      ↔ ¬ P (.add first w) ∧ (sum (first + w) words).Avoids P :=
  (avoids_bind _ _).trans (and_congr_left' (avoids_take _))

/-- **Sums grow**, so that none overflows iff the last one does not. -/
theorem avoids_sum (first : UInt64) (words : List UInt64) :
    (sum first words).Avoids Step.Overflows ↔ first.toNat + exactSum words < 2 ^ 64 := by
  induction words generalizing first with
  | nil => exact iff_of_true (avoids_pure first) first.toNat_lt
  | cons w words ih =>
    rw [avoids_sum_cons, ih, exactSum_cons, Step.Overflows]
    constructor
    · rintro ⟨hfirst, hrest⟩
      rw [toNat_add_of_fits (Nat.not_le.mp hfirst)] at hrest
      omega
    · intro h
      have hfirst : first.toNat + w.toNat < 2 ^ 64 := by omega
      rw [toNat_add_of_fits hfirst]
      omega

theorem sum_avoids_divisionByZero (first : UInt64) (words : List UInt64) :
    (sum first words).Avoids Step.DividesByZero :=
  avoids_foldlM (fun _ _ => (avoids_take _).mpr id) _ _

end Calculation

end Simulcast
