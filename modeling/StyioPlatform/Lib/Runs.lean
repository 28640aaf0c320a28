import Mathlib.Data.List.Basic

/-! Runs of a state machine over a list of events, and conditions that every step of a run meets. -/
namespace StyioPlatform

variable {σ ε : Type} {step : σ → ε → σ} {P Q : σ → ε → Prop} {I : σ → Prop} {s : σ} {l : List ε}

/-- Every event of the run meets the condition in the state in which it comes. -/
def Along (step : σ → ε → σ) (P : σ → ε → Prop) : List ε → σ → Prop
  | [], _ => True
  | e :: l, s => P s e ∧ Along step P l (step s e)

instance [∀ s e, Decidable (P s e)] : ∀ (l : List ε) (s : σ), Decidable (Along step P l s)
  | [], _ => isTrue trivial
  | e :: l, s =>
    have := instDecidableAlong l (step s e)
    inferInstanceAs (Decidable (P s e ∧ Along step P l (step s e)))

/-- An invariant of the steps that meet the condition, along a run of such steps. -/
theorem Along.foldl (h : Along step P l s) (hs : I s)
    (hstep : ∀ s e, I s → P s e → I (step s e)) : I (l.foldl step s) := by
  induction l generalizing s with
  | nil => exact hs
  | cons e l ih => exact ih h.2 (hstep s e hs h.1)

theorem along_append {l' : List ε} :
    Along step P (l ++ l') s ↔ Along step P l s ∧ Along step P l' (l.foldl step s) := by
  induction l generalizing s with
  | nil => exact (and_iff_right trivial).symm
  | cons e l ih => exact (and_congr_right fun _ => ih).trans and_assoc.symm

/-- What an event of the run meets in the state in which it comes. -/
theorem Along.split {before rest : List ε} {e : ε} (h : Along step P (before ++ e :: rest) s) :
    P (before.foldl step s) e := by
  induction before generalizing s with
  | nil => exact h.1
  | cons d before ih => exact ih h.2

theorem Along.and (hP : Along step P l s) (hQ : Along step Q l s) :
    Along step (fun s e => P s e ∧ Q s e) l s := by
  induction l generalizing s with
  | nil => trivial
  | cons e l ih => exact ⟨⟨hP.1, hQ.1⟩, ih hP.2 hQ.2⟩

/-- What an invariant gives for one step holds along the run. -/
theorem Along.imp (h : Along step P l s) (hs : I s)
    (hstep : ∀ s e, I s → P s e → I (step s e)) (hQ : ∀ s e, I s → P s e → Q s e) :
    Along step Q l s := by
  induction l generalizing s with
  | nil => trivial
  | cons e l ih => exact ⟨hQ s e hs h.1, ih h.2 (hstep s e hs h.1)⟩

end StyioPlatform
