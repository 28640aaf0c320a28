import Mathlib.Control.Basic

/-! Stateful programs that may stop with an error and keep the state reached so far, and the
rules of pre- and postconditions for both ways of ending. -/
namespace StyioPlatform

/-- A program over the state `σ`. An error does not undo the changes made before it. -/
def Prog (ε σ α : Type) : Type := σ → Except ε α × σ

namespace Prog

variable {ε σ α β : Type}

instance : Monad (Prog ε σ) where
  pure a s := (.ok a, s)
  bind x f s :=
    match x s with
    | (.ok a, t) => f a t
    | (.error e, t) => (.error e, t)

/-- Stop with an error. -/
def fail (e : ε) : Prog ε σ α := fun s => (.error e, s)

/-- The current state. -/
def read : Prog ε σ σ := fun s => (.ok s, s)

def modify (f : σ → σ) : Prog ε σ Unit := fun s => (.ok (), f s)

/-- Continue with the value of `x`, or stop with its error. -/
def ofExcept (x : Except ε α) : Prog ε σ α := fun s => (x, s)

/-- Run `x`; an error runs the handler in the state that `x` left. -/
def handle (x : Prog ε σ α) (h : ε → Prog ε σ α) : Prog ε σ α := fun s =>
  match x s with
  | (.ok a, t) => (.ok a, t)
  | (.error e, t) => h e t

/-- Every way of ending satisfies its postcondition: `Q` on a value, `E` on an error. -/
def wp (x : Prog ε σ α) (Q : α → σ → Prop) (E : ε → σ → Prop) (s : σ) : Prop :=
  match x s with
  | (.ok a, t) => Q a t
  | (.error e, t) => E e t

variable {x : Prog ε σ α} {k : α → Prog ε σ β} {Q : α → σ → Prop} {R : β → σ → Prop}
  {E E' : ε → σ → Prop} {s t : σ} {a : α} {e : ε}

@[simp] theorem wp_pure : wp (pure a : Prog ε σ α) Q E s ↔ Q a s := Iff.rfl

@[simp] theorem wp_bind :
    wp (x >>= k) R E s ↔ wp x (fun a t => wp (k a) R E t) E s := by
  simp only [wp, bind]
  rcases x s with ⟨_ | _, _⟩ <;> rfl

@[simp] theorem wp_fail : wp (fail e : Prog ε σ α) Q E s ↔ E e s := Iff.rfl

@[simp] theorem wp_read {Q : σ → σ → Prop} : wp (read : Prog ε σ σ) Q E s ↔ Q s s := Iff.rfl

@[simp] theorem wp_modify {f : σ → σ} {Q : Unit → σ → Prop} :
    wp (modify f : Prog ε σ Unit) Q E s ↔ Q () (f s) := Iff.rfl

@[simp] theorem wp_ofExcept {v : Except ε α} :
    wp (ofExcept v : Prog ε σ α) Q E s ↔ (∀ a, v = .ok a → Q a s) ∧ ∀ e, v = .error e → E e s := by
  cases v <;> simp [wp, ofExcept]

@[simp] theorem wp_handle {h : ε → Prog ε σ α} :
    wp (handle x h) Q E s ↔ wp x Q (fun e t => wp (h e) Q E t) s := by
  simp only [wp, handle]
  rcases x s with ⟨_ | _, _⟩ <;> rfl

@[simp] theorem wp_ite {c : Prop} [Decidable c] {y : Prog ε σ α} :
    wp (if c then x else y) Q E s ↔ (c → wp x Q E s) ∧ (¬ c → wp y Q E s) := by
  by_cases h : c <;> simp [h]

theorem wp_mono {Q' : α → σ → Prop} (h : wp x Q E s) (hQ : ∀ a t, Q a t → Q' a t)
    (hE : ∀ e t, E e t → E' e t) : wp x Q' E' s := by
  unfold wp at *
  split at h
  · exact hQ _ _ h
  · exact hE _ _ h

theorem wp_and {Q' : α → σ → Prop} (h : wp x Q E s) (h' : wp x Q' E' s) :
    wp x (fun a t => Q a t ∧ Q' a t) (fun e t => E e t ∧ E' e t) s := by
  unfold wp at *
  rcases hx : x s with ⟨_ | _, _⟩ <;> simp_all

theorem wp_true : wp x (fun _ _ => True) (fun _ _ => True) s := by
  unfold wp
  split <;> trivial

/-- What a rule says about a run that returned a value. -/
theorem wp.of_ok (h : wp x Q E s) (hx : x s = (.ok a, t)) : Q a t := by
  simpa only [wp, hx] using h

theorem wp.of_error (h : wp x Q E s) (hx : x s = (.error e, t)) : E e t := by
  simpa only [wp, hx] using h

/-- A property of every state in which the program can end. -/
theorem wp.of_snd {P : σ → Prop} (h : wp x (fun _ t => P t) (fun _ t => P t) s) : P (x s).2 := by
  unfold wp at h
  rcases hx : x s with ⟨_ | _, _⟩ <;> simp_all

/-- A property of the result and of the state together. -/
theorem result_of_wp {P : Except ε α → σ → Prop}
    (h : wp x (fun a t => P (.ok a) t) (fun e t => P (.error e) t) s) : P (x s).1 (x s).2 := by
  unfold wp at h
  rcases hx : x s with ⟨_ | _, _⟩ <;> simpa [hx] using h

theorem wp_self : wp x (fun a t => x s = (.ok a, t)) (fun e t => x s = (.error e, t)) s := by
  unfold wp
  rcases x s with ⟨_ | _, _⟩ <;> rfl

theorem wp_of_eq_ok (hx : x s = (.ok a, t)) : wp x Q E s ↔ Q a t := by simp [wp, hx]

theorem wp_of_eq_error (hx : x s = (.error e, t)) : wp x Q E s ↔ E e t := by simp [wp, hx]

/-- Started where `I` holds, the program ends where `I` holds, in either way. -/
def Keeps (I : σ → Prop) (x : Prog ε σ α) : Prop := ∀ s, I s → I (x s).2

section keeps

variable {I : σ → Prop}

theorem keeps_iff : Keeps I x ↔ ∀ s, I s → wp x (fun _ t => I t) (fun _ t => I t) s := by
  refine forall₂_congr fun s _ => ?_
  unfold wp
  rcases x s with ⟨_ | _, _⟩ <;> rfl

theorem Keeps.wp (h : Keeps I x) (hs : I s) : wp x (fun _ t => I t) (fun _ t => I t) s :=
  keeps_iff.mp h s hs

theorem keeps_pure : Keeps I (pure a : Prog ε σ α) := fun _ h => h

theorem keeps_fail : Keeps I (fail e : Prog ε σ α) := fun _ h => h

theorem keeps_read : Keeps I (read : Prog ε σ σ) := fun _ h => h

theorem keeps_modify {f : σ → σ} (h : ∀ s, I s → I (f s)) : Keeps I (modify f : Prog ε σ Unit) := h

theorem keeps_ofExcept {v : Except ε α} : Keeps I (ofExcept v : Prog ε σ α) := fun _ h => h

theorem keeps_bind (hx : Keeps I x) (hk : ∀ a, Keeps I (k a)) : Keeps I (x >>= k) := by
  rw [keeps_iff]
  intro s hs
  rw [wp_bind]
  exact wp_mono (hx.wp hs) (fun a t ht => (hk a).wp ht) (fun _ _ ht => ht)

theorem keeps_bind_ofExcept {v : Except ε α} (hk : ∀ a, v = .ok a → Keeps I (k a)) :
    Keeps I (ofExcept v >>= k) := by
  intro s hs
  cases v with
  | error e => exact hs
  | ok a => exact hk a rfl s hs

theorem keeps_handle {h : ε → Prog ε σ α} (hx : Keeps I x) (hh : ∀ e, Keeps I (h e)) :
    Keeps I (handle x h) := by
  rw [keeps_iff]
  intro s hs
  rw [wp_handle]
  exact wp_mono (hx.wp hs) (fun _ _ ht => ht) (fun e t ht => (hh e).wp ht)

theorem keeps_ite {c : Prop} [Decidable c] {y : Prog ε σ α} (hx : Keeps I x) (hy : Keeps I y) :
    Keeps I (if c then x else y) := by
  split
  · exact hx
  · exact hy

end keeps

section congr

variable {y : Prog ε σ α} {l : α → Prog ε σ β} {h : ε → Prog ε σ α}

/-- Programs that do the same in the state that their first part keeps. -/
theorem bind_congr_at (hx : Keeps (· = s) x) (hk : ∀ a, k a s = l a s) :
    (x >>= k) s = (x >>= l) s := by
  have hkept : (x s).2 = s := hx s rfl
  cases hrun : x s with
  | mk result s' =>
    rw [hrun] at hkept
    subst hkept
    cases result with
    | error e => simp only [bind, hrun]
    | ok a => simpa only [bind, hrun] using hk a

theorem bind_congr_first (hx : x s = y s) : (x >>= k) s = (y >>= k) s := by
  simp only [bind, hx]

theorem handle_congr (hx : x s = y s) : handle x h s = handle y h s := by
  simp only [handle, hx]

end congr

/-- Where `x` returns a value, `y` returns it too from a related state, and the states in which
they end are related. -/
def Follows (R R' : σ → σ → Prop) (x y : Prog ε σ α) : Prop :=
  ∀ s t a s', R s t → x s = (.ok a, s') → ∃ t', y t = (.ok a, t') ∧ R' s' t'

section follows

variable {R R' R'' : σ → σ → Prop} {y : Prog ε σ α} {l : α → Prog ε σ β}

theorem bind_eq_ok {b : β} {t : σ} (h : (x >>= k) s = (.ok b, t)) :
    ∃ a s', x s = (.ok a, s') ∧ k a s' = (.ok b, t) := by
  simp only [bind] at h
  rcases hx : x s with ⟨_ | a, s'⟩
  · rw [hx] at h
    cases h
  · rw [hx] at h
    exact ⟨a, s', rfl, h⟩

theorem bind_of_ok {s' : σ} (h : x s = (.ok a, s')) : (x >>= k) s = k a s' := by
  simp only [bind, h]

/-- The values that the program can return have the property. -/
def Returns (R : α → Prop) (x : Prog ε σ α) : Prop := ∀ s a t, x s = (.ok a, t) → R a

theorem returns_pure {R : α → Prop} (h : R a) : Returns R (pure a : Prog ε σ α) := by
  intro s b t hx
  cases hx
  exact h

theorem returns_bind {R : β → Prop} (h : ∀ a, Returns R (k a)) : Returns R (x >>= k) := by
  intro s b t hx
  obtain ⟨a, s', -, hk⟩ := bind_eq_ok hx
  exact h a s' b t hk

theorem Follows.bind (hx : Follows R R' x y) (hk : ∀ a, Follows R' R'' (k a) (l a)) :
    Follows R R'' (x >>= k) (y >>= l) := by
  intro s t b s'' hst h
  obtain ⟨a, s', hxs, hks⟩ := bind_eq_ok h
  obtain ⟨t', hyt, hst'⟩ := hx s t a s' hst hxs
  obtain ⟨t'', hlt, hst''⟩ := hk a s' t' b s'' hst' hks
  exact ⟨t'', (bind_of_ok hyt).trans hlt, hst''⟩

end follows

section computes

variable {y : Except ε α} {f : α → Except ε β}

/-- The program has the result of a computation, in whatever state it starts. -/
def Computes (x : Prog ε σ α) (y : Except ε α) : Prop := ∀ s, (x s).1 = y

theorem Computes.eq_of_run (h : Computes x y) {result : Except ε α} (hrun : x s = (result, t)) :
    y = result := by
  rw [← h s, hrun]

theorem computes_pure : Computes (pure a : Prog ε σ α) (.ok a) := fun _ => rfl

theorem computes_fail : Computes (fail e : Prog ε σ α) (.error e) := fun _ => rfl

theorem computes_ofExcept : Computes (ofExcept y : Prog ε σ α) y := fun _ => rfl

/-- A change of the state does not show in the result. -/
theorem Computes.after_modify {g : σ → σ} {k : Unit → Prog ε σ α} (h : Computes (k ()) y) :
    Computes (modify g >>= k) y := fun s => h (g s)

theorem Computes.bind (hx : Computes x y) (hk : ∀ a, Computes (k a) (f a)) :
    Computes (x >>= k) (y >>= f) := by
  intro s
  have hresult := hx s
  rcases hrun : x s with ⟨_ | a, t⟩
  · rw [hrun] at hresult
    simp only [← hresult, hrun, Bind.bind, Except.bind]
  · rw [hrun] at hresult
    simp only [← hresult, hrun, Bind.bind, Except.bind]
    exact hk a t

theorem computes_foldlM {γ : Type} {l : List γ} {body : α → γ → Prog ε σ α}
    {step : α → γ → Except ε α} (hbody : ∀ a c, Computes (body a c) (step a c)) :
    Computes (l.foldlM body a) (l.foldlM step a) := by
  induction l generalizing a with
  | nil => exact computes_pure
  | cons c l ih =>
    rw [List.foldlM_cons, List.foldlM_cons]
    exact (hbody a c).bind fun a' => ih

end computes

/-- The rule of a loop over values: the invariant holds after each part of it, and the error
postcondition where a round stops. -/
theorem wp_foldlM {γ : Type} {l : List γ} {body : α → γ → Prog ε σ α}
    (I : List γ → α → σ → Prop)
    (hbody : ∀ before c rest, l = before ++ c :: rest → ∀ a s, I before a s →
      wp (body a c) (I (before ++ [c])) E s) (h : I [] a s) :
    wp (l.foldlM body a) (I l) E s := by
  have hrun : ∀ before rest, l = before ++ rest → ∀ a s, I before a s →
      wp (rest.foldlM body a) (I l) E s := by
    intro before rest
    induction rest generalizing before with
    | nil =>
      intro hl a s hI
      rw [hl, List.append_nil]
      exact hI
    | cons c rest ih =>
      intro hl a s hI
      rw [List.foldlM_cons, wp_bind]
      refine wp_mono (hbody before c rest hl a s hI) ?_ (fun _ _ he => he)
      intro a' s' hI'
      exact ih (before ++ [c]) (by simp [hl]) a' s' hI'
  exact hrun [] l rfl a s h

end Prog

end StyioPlatform
