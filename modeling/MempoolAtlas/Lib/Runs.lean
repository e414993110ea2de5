import Mathlib.Tactic

/-!
# Runs of a labelled step relation

A run with the labels of its steps in order: runs compose and come apart where
their labels do, and what every step preserves holds along a run.

## Results

* `trans`, `split` — runs compose and come apart.
* `invariant`, `history` — what every step preserves holds along a run.
-/

namespace MempoolAtlas

universe u v

/-- A run of `step` with the labels of its steps in order. -/
inductive LabelledRun {σ : Type u} {ε : Type v} (step : σ → ε → σ → Prop) :
    σ → List ε → σ → Prop
  | refl {s : σ} : LabelledRun step s [] s
  | head {s mid last : σ} {e : ε} {trace : List ε} (hStep : step s e mid)
      (hRun : LabelledRun step mid trace last) : LabelledRun step s (e :: trace) last

namespace LabelledRun

variable {σ : Type u} {ε : Type v} {step : σ → ε → σ → Prop}

theorem single {s s' : σ} {e : ε} (h : step s e s') : LabelledRun step s [e] s' :=
  head h refl

theorem trans {s₁ s₂ s₃ : σ} {t₁ t₂ : List ε} (h₁ : LabelledRun step s₁ t₁ s₂)
    (h₂ : LabelledRun step s₂ t₂ s₃) : LabelledRun step s₁ (t₁ ++ t₂) s₃ := by
  induction h₁ with
  | refl => exact h₂
  | head hStep _ ih => exact head hStep (ih h₂)

/-- A first step before a run to some state with a property. -/
theorem extend {s mid : σ} {e : ε} {trace : List ε} {goal : σ → Prop} (hStep : step s e mid)
    (h : ∃ last, LabelledRun step mid trace last ∧ goal last) :
    ∃ last, LabelledRun step s (e :: trace) last ∧ goal last :=
  h.imp fun _ hRun => ⟨head hStep hRun.1, hRun.2⟩

/-- A run comes apart wherever its labels do. -/
theorem split {s s' : σ} {t₁ t₂ : List ε} (h : LabelledRun step s (t₁ ++ t₂) s') :
    ∃ mid, LabelledRun step s t₁ mid ∧ LabelledRun step mid t₂ s' := by
  induction t₁ generalizing s with
  | nil => exact ⟨s, refl, h⟩
  | cons e rest ih =>
    cases h with
    | head hStep hRun =>
      obtain ⟨mid, hFirst, hSecond⟩ := ih hRun
      exact ⟨mid, head hStep hFirst, hSecond⟩

/-- The step a run makes at one of its labels, with the runs around it. -/
theorem split_at {s s' : σ} {t₁ t₂ : List ε} {e : ε}
    (h : LabelledRun step s (t₁ ++ e :: t₂) s') :
    ∃ before after, LabelledRun step s t₁ before ∧ step before e after ∧
      LabelledRun step after t₂ s' := by
  obtain ⟨before, hFirst, hSecond⟩ := h.split
  cases hSecond with
  | head hStep hRun => exact ⟨before, _, hFirst, hStep, hRun⟩

/-- What every step preserves holds along a run. -/
theorem invariant {inv : σ → Prop} (hKept : ∀ s e s', inv s → step s e s' → inv s') {s s' : σ}
    {trace : List ε} (h : LabelledRun step s trace s') (hStart : inv s) : inv s' := by
  induction h with
  | refl => exact hStart
  | head hStep _ ih => exact ih (hKept _ _ _ hStart hStep)

/-- What every allowed step preserves, of the labels so far too, holds along a run. -/
theorem history {s s' : σ} {trace past : List ε} (h : LabelledRun step s trace s')
    (allowed : ε → Prop) (inv : List ε → σ → Prop)
    (hKept : ∀ past s e s', allowed e → inv past s → step s e s' → inv (past ++ [e]) s')
    (hAllowed : ∀ e ∈ trace, allowed e) (hStart : inv past s) : inv (past ++ trace) s' := by
  induction h generalizing past with
  | refl => rwa [List.append_nil]
  | @head s mid last e trace hStep _ ih =>
    have hNext := hKept past s e mid (hAllowed e List.mem_cons_self) hStart hStep
    have hLast := ih (fun e' hMem => hAllowed e' (List.mem_cons_of_mem e hMem)) hNext
    rwa [List.append_assoc] at hLast

end LabelledRun

end MempoolAtlas
