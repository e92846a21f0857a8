import Mathlib.Data.List.Basic
import Mathlib.Data.List.Induction
/-!
# Logs

A log is what steps gave, one entry for each (`logged`).  It is read from the left, since what
an entry says is judged by the entries before it, and it grows at its right end.  So what a
state has to do with its log is shown by one step more: `logged_induct`.  `concat_eq_split_iff`
says where an entry of a longer log can be, and with it `throughout_concat_iff` carries a
judgement of all entries to one entry more.
-/

namespace Simulcast

/-! ### Steps and what they give -/

section

variable {σ ι α : Type} {step : σ → ι → α × σ} {s : σ}

/-- Takes steps one after another, and logs what they give. -/
def logged (step : σ → ι → α × σ) (s : σ) : List ι → List α × σ
  | [] => ([], s)
  | i :: rest =>
    ((step s i).1 :: (logged step (step s i).2 rest).1, (logged step (step s i).2 rest).2)

theorem logged_concat (s : σ) (inputs : List ι) (i : ι) :
    logged step s (inputs ++ [i])
      = ((logged step s inputs).1 ++ [(step (logged step s inputs).2 i).1],
        (step (logged step s inputs).2 i).2) := by
  induction inputs generalizing s with
  | nil => rfl
  | cons first rest ih =>
    rw [List.cons_append, logged, ih]
    rfl

/-- **What one step keeps, all steps keep.** -/
theorem logged_induct {P : List α → σ → Prop} (hstart : P [] s)
    (hstep : ∀ log s i, P log s → P (log ++ [(step s i).1]) (step s i).2) (inputs : List ι) :
    P (logged step s inputs).1 (logged step s inputs).2 := by
  induction inputs using List.reverseRecOn with
  | nil => exact hstart
  | append_singleton inputs i ih =>
    rw [logged_concat]
    exact hstep _ _ i ih

/-- If an entry tells its input, then a log tells all of them. -/
theorem map_logged {input : α → ι} (h : ∀ s i, input (step s i).1 = i) (s : σ) (inputs : List ι) :
    (logged step s inputs).1.map input = inputs := by
  induction inputs generalizing s with
  | nil => rfl
  | cons i rest ih => rw [logged, List.map_cons, h, ih]

end

/-! ### Judging entries -/

variable {α : Type} {right : List α → α → Prop} {log : List α} {x : α}

/-- **An entry of a log with one more** is the new one, or it was there before. -/
theorem concat_eq_split_iff {before after : List α} {y : α} :
    log ++ [x] = before ++ y :: after ↔
      (before = log ∧ y = x ∧ after = []) ∨
      ∃ rest, after = rest ++ [x] ∧ log = before ++ y :: rest := by
  constructor
  · intro h
    rcases List.eq_nil_or_concat' after with rfl | ⟨rest, z, rfl⟩
    · obtain ⟨hlog, hy⟩ := List.append_inj' h rfl
      exact .inl ⟨hlog.symm, (List.singleton_inj.mp hy).symm, rfl⟩
    · rw [← List.cons_append, ← List.append_assoc] at h
      obtain ⟨hlog, hz⟩ := List.append_inj' h rfl
      rw [List.singleton_inj.mp hz]
      exact .inr ⟨rest, rfl, hlog⟩
  · rintro (⟨rfl, rfl, rfl⟩ | ⟨rest, rfl, rfl⟩)
    · rfl
    · rw [List.append_assoc, List.cons_append]

/-- Every entry is right, given those before it. -/
def Throughout (right : List α → α → Prop) (log : List α) : Prop :=
  ∀ before x after, log = before ++ x :: after → right before x

theorem throughout_nil (right : List α → α → Prop) : Throughout right [] := by
  intro before x after h
  exact absurd h (by simp)

theorem throughout_concat_iff :
    Throughout right (log ++ [x]) ↔ Throughout right log ∧ right log x := by
  constructor
  · intro h
    refine ⟨fun before y after hlog => h before y (after ++ [x]) ?_, h log x [] rfl⟩
    rw [hlog, List.append_assoc, List.cons_append]
  · rintro ⟨hlog, hx⟩ before y after he
    rcases concat_eq_split_iff.mp he with ⟨rfl, rfl, -⟩ | ⟨rest, -, he⟩
    · exact hx
    · exact hlog before y rest he

end Simulcast
