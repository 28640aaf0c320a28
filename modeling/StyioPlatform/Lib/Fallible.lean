import Mathlib.Control.Basic
import Mathlib.Data.List.Forall2

/-! Computations that may fail, and loops over them. -/
namespace StyioPlatform

variable {ε α β σ : Type} {f : σ → α → Except ε σ} {l : List α} {s s' : σ}

theorem bind_ok_iff {x : Except ε α} {g : α → Except ε β} {b : β} :
    (x >>= g) = .ok b ↔ ∃ a, x = .ok a ∧ g a = .ok b := by
  cases x with
  | error e => simp [bind, Except.bind]
  | ok a => simp [bind, Except.bind]

/-- What every round of a loop keeps holds when the loop ends. -/
theorem foldlM_ok {I : List α → σ → Prop} (hstart : I [] s)
    (hstep : ∀ before a s₁ s₂, a ∈ l → I before s₁ → f s₁ a = .ok s₂ → I (before ++ [a]) s₂)
    (h : l.foldlM f s = .ok s') : I l s' := by
  have hrun : ∀ before rest s, (∀ a ∈ rest, a ∈ l) → I before s → rest.foldlM f s = .ok s' →
      I (before ++ rest) s' := by
    intro before rest
    induction rest generalizing before with
    | nil =>
      intro s _ hs h
      cases h
      simpa using hs
    | cons a rest ih =>
      intro s hmem hs h
      rw [List.foldlM_cons] at h
      obtain ⟨s₁, hfirst, hrest⟩ := bind_ok_iff.mp h
      have hnext := hstep before a s s₁ (hmem a List.mem_cons_self) hs hfirst
      have := ih (before ++ [a]) s₁ (fun b hb => hmem b (List.mem_cons_of_mem _ hb)) hnext hrest
      simpa using this
  exact hrun [] l s (fun _ h => h) hstart h

/-- A loop stops for a reason for which one of its rounds does. -/
theorem foldlM_ne_error {I : List α → σ → Prop} {e : ε} (hstart : I [] s)
    (hstep : ∀ before a s₁ s₂, a ∈ l → I before s₁ → f s₁ a = .ok s₂ → I (before ++ [a]) s₂)
    (hround : ∀ before a s₁, a ∈ l → I before s₁ → f s₁ a ≠ .error e) :
    l.foldlM f s ≠ .error e := by
  have hrun : ∀ (before rest : List α) (s : σ), (∀ a ∈ rest, a ∈ l) → I before s →
      rest.foldlM f s ≠ .error e := by
    intro before rest
    induction rest generalizing before with
    | nil => exact fun s _ _ h => nomatch h
    | cons a rest ih =>
      intro s hmem hs h
      rw [List.foldlM_cons] at h
      cases hfirst : f s a with
      | error e' =>
        rw [hfirst] at h
        cases h
        exact hround before a s (hmem a List.mem_cons_self) hs hfirst
      | ok s₁ =>
        rw [hfirst] at h
        have hnext := hstep before a s s₁ (hmem a List.mem_cons_self) hs hfirst
        exact ih (before ++ [a]) s₁ (fun b hb => hmem b (List.mem_cons_of_mem _ hb)) hnext h
  exact hrun [] l s (fun _ h => h) hstart

theorem exists_of_mem_mapM {g : α → Except ε β} {r : List β} {b : β} (h : l.mapM g = .ok r)
    (hb : b ∈ r) : ∃ a ∈ l, g a = .ok b := by
  induction l generalizing r with
  | nil =>
    cases h
    cases hb
  | cons a l ih =>
    rw [List.mapM_cons] at h
    obtain ⟨b₁, hfirst, h⟩ := bind_ok_iff.mp h
    obtain ⟨r₁, hrest, h⟩ := bind_ok_iff.mp h
    cases h
    rcases List.mem_cons.mp hb with rfl | hb
    · exact ⟨a, List.mem_cons_self, hfirst⟩
    · obtain ⟨a', ha', hb'⟩ := ih hrest hb
      exact ⟨a', List.mem_cons_of_mem a ha', hb'⟩

theorem mapM_congr_mem {g g' : α → Except ε β} (h : ∀ a ∈ l, g a = g' a) : l.mapM g = l.mapM g' := by
  induction l with
  | nil => rfl
  | cons a l ih =>
    rw [List.mapM_cons, List.mapM_cons, h a List.mem_cons_self,
      ih fun b hb => h b (List.mem_cons_of_mem a hb)]

theorem mapM_eq_ok {g : α → Except ε β} {r : List β} :
    l.mapM g = .ok r ↔ List.Forall₂ (fun a b => g a = .ok b) l r := by
  induction l generalizing r with
  | nil =>
    rw [List.mapM_nil, List.forall₂_nil_left_iff]
    exact ⟨fun h => by cases h; rfl, fun h => by rw [h]; rfl⟩
  | cons a l ih =>
    rw [List.mapM_cons, List.forall₂_cons_left_iff]
    constructor
    · intro h
      obtain ⟨b, hfirst, h⟩ := bind_ok_iff.mp h
      obtain ⟨r', hrest, h⟩ := bind_ok_iff.mp h
      cases h
      exact ⟨b, r', hfirst, ih.mp hrest, rfl⟩
    · rintro ⟨b, r', hfirst, hrest, rfl⟩
      exact bind_ok_iff.mpr ⟨b, hfirst, bind_ok_iff.mpr ⟨r', ih.mpr hrest, rfl⟩⟩

theorem exists_mapM_eq_ok {g : α → Except ε β} :
    (∃ r, l.mapM g = .ok r) ↔ ∀ a ∈ l, ∃ b, g a = .ok b := by
  simp only [mapM_eq_ok]
  induction l with
  | nil => exact ⟨fun _ => nofun, fun _ => ⟨[], .nil⟩⟩
  | cons a l ih =>
    constructor
    · rintro ⟨r, hr⟩ a' ha'
      obtain ⟨b, r', hb, hr', -⟩ := List.forall₂_cons_left_iff.mp hr
      rcases List.mem_cons.mp ha' with rfl | ha'
      · exact ⟨b, hb⟩
      · exact ih.mp ⟨r', hr'⟩ a' ha'
    · intro h
      obtain ⟨b, hb⟩ := h a List.mem_cons_self
      obtain ⟨r, hr⟩ := ih.mpr fun a' ha' => h a' (List.mem_cons_of_mem a ha')
      exact ⟨b :: r, .cons hb hr⟩

/-- A loop of which every round gives a result gives the list of them. -/
theorem mapM_eq_pure {m : Type → Type} [Monad m] [LawfulMonad m] {g : α → m β} {r : α → β}
    (h : ∀ a ∈ l, g a = pure (r a)) : l.mapM g = pure (l.map r) := by
  induction l with
  | nil => rfl
  | cons a l ih =>
    rw [List.mapM_cons, h a List.mem_cons_self, ih fun b hb => h b (List.mem_cons_of_mem a hb)]
    simp

section Agree

variable {ε' α' β' σ' : Type} {R R' : α → α' → Prop} {x : Except ε α} {x' : Except ε' α'}

/-- Both computations fail, or both give results that are related. -/
def Agree (R : α → α' → Prop) : Except ε α → Except ε' α' → Prop
  | .ok a, .ok a' => R a a'
  | .error _, .error _ => True
  | _, _ => False

instance [∀ a a', Decidable (R a a')] : Decidable (Agree R x x') :=
  match x, x' with
  | .ok a, .ok a' => inferInstanceAs (Decidable (R a a'))
  | .error _, .error _ => .isTrue trivial
  | .ok _, .error _ => .isFalse id
  | .error _, .ok _ => .isFalse id

theorem Agree.mono (h : Agree R x x') (hR : ∀ a a', R a a' → R' a a') : Agree R' x x' := by
  cases x <;> cases x' <;> first | trivial | exact h.elim | exact hR _ _ h

theorem Agree.bind {S : β → β' → Prop} {f : α → Except ε β} {f' : α' → Except ε' β'}
    (h : Agree R x x')
    (hf : ∀ a a', x = .ok a → x' = .ok a' → R a a' → Agree S (f a) (f' a')) :
    Agree S (x >>= f) (x' >>= f') := by
  cases x with
  | error e =>
    cases x' with
    | error e' => trivial
    | ok a' => exact h.elim
  | ok a =>
    cases x' with
    | error e' => exact h.elim
    | ok a' => exact hf a a' rfl rfl h

/-- Where the results of one are those of the other, they agree. -/
theorem agree_of_iff (h : (∃ a, x = .ok a) ↔ ∃ a', x' = .ok a')
    (hR : ∀ a a', x = .ok a → x' = .ok a' → R a a') : Agree R x x' := by
  cases x with
  | error e =>
    cases x' with
    | error e' => trivial
    | ok a' =>
      obtain ⟨_, ha⟩ := h.mpr ⟨a', rfl⟩
      cases ha
  | ok a =>
    cases x' with
    | error e' =>
      obtain ⟨_, ha⟩ := h.mp ⟨a, rfl⟩
      cases ha
    | ok a' => exact hR a a' rfl rfl

theorem Agree.exists_iff (h : Agree R x x') : (∃ a, x = .ok a) ↔ ∃ a', x' = .ok a' := by
  cases x with
  | error e =>
    cases x' with
    | error e' => simp
    | ok a' => exact h.elim
  | ok a =>
    cases x' with
    | error e' => exact h.elim
    | ok a' => simp

theorem Agree.eq_ok_iff {x' : Except ε' α} {a : α} (h : Agree Eq x x') :
    x = .ok a ↔ x' = .ok a := by
  cases x with
  | error e =>
    cases x' with
    | error e' => simp
    | ok a' => exact h.elim
  | ok b =>
    cases x' with
    | error e' => exact h.elim
    | ok b' =>
      have heq : b = b' := h
      simp [heq]

/-- Loops of which the rounds agree. -/
theorem agree_foldlM {T : σ → σ' → Prop} {f' : σ' → α' → Except ε' σ'} {t : σ'} {l' : List α'}
    (hl : List.Forall₂ R l l') (hst : T s t)
    (hround : ∀ s t a a', T s t → R a a' → Agree T (f s a) (f' t a')) :
    Agree T (l.foldlM f s) (l'.foldlM f' t) := by
  induction hl generalizing s t with
  | nil => exact hst
  | cons ha _ ih =>
    rw [List.foldlM_cons, List.foldlM_cons]
    exact (hround s t _ _ hst ha).bind fun s' t' _ _ hst' => ih hst'

end Agree

end StyioPlatform
