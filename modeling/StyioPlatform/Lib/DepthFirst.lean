import Mathlib.Data.Finset.Card
import Mathlib.Data.List.Infix
import Mathlib.Logic.Function.Basic
import Mathlib.Logic.Relation

/-! Depth-first search that lists every vertex after its successors. -/
namespace StyioPlatform.DepthFirst

open Relation

variable {α : Type} [DecidableEq α]

inductive VisitState where
  | unseen
  | active
  | done
  deriving DecidableEq

/-- The stack ends with the vertex that was entered last. -/
structure Search (α : Type) where
  visitState : α → VisitState
  stack : List α
  order : List α

/-- How a search ends without a result. -/
inductive Stop (α : Type) where
  | cycle (path : List α)
  | unknown (a : α)
  | exhausted

namespace Search

def start : Search α := ⟨fun _ => .unseen, [], []⟩

def enter (s : Search α) (a : α) : Search α where
  visitState := Function.update s.visitState a .active
  stack := s.stack ++ [a]
  order := s.order

def leave (s : Search α) (a : α) : Search α where
  visitState := Function.update s.visitState a .done
  stack := s.stack.dropLast
  order := s.order ++ [a]

end Search

/-- Visit a vertex and what it leads to; the depth bounds the recursion. -/
def visit (next : α → Option (List α)) : ℕ → Search α → α → Except (Stop α) (Search α)
  | 0, _, _ => .error .exhausted
  | depth + 1, s, a =>
    match s.visitState a with
    | .done => .ok s
    | .active => .error (.cycle (s.stack.dropWhile (· ≠ a) ++ [a]))
    | .unseen =>
      match next a with
      | none => .error (.unknown a)
      | some successors => do
        let s' ← successors.foldlM (visit next depth) (s.enter a)
        .ok (s'.leave a)

/-- Visit the roots in turn. -/
def visitAll (next : α → Option (List α)) (depth : ℕ) (roots : List α) :
    Except (Stop α) (List α) :=
  Search.order <$> roots.foldlM (visit next depth) Search.start

def Edge (next : α → Option (List α)) (a b : α) : Prop := ∃ successors, next a = some successors ∧
  b ∈ successors

variable {next : α → Option (List α)} {V : Finset α} {s s' s'' : Search α} {a b : α} {l : List α}
  {depth : ℕ}

/-- The finished vertices are listed once, each after its successors. -/
structure Ordered (next : α → Option (List α)) (s : Search α) : Prop where
  done : ∀ a, s.visitState a = .done ↔ a ∈ s.order
  active : ∀ a, s.visitState a = .active ↔ a ∈ s.stack
  nodup : s.order.Nodup
  nodup_stack : s.stack.Nodup
  closed : ∀ before a after, s.order = before ++ a :: after → ∀ b, Edge next a b → b ∈ before

/-- The search from `s` has visited the vertices and is back where it started. -/
structure Visits (next : α → Option (List α)) (V : Finset α) (s : Search α) (l : List α)
    (s' : Search α) : Prop where
  ordered : Ordered next s'
  stack : s'.stack = s.stack
  extends_order : s.order <+: s'.order
  mem : ∀ a ∈ l, a ∈ s'.order
  inside : ∀ a ∈ s'.order, a ∈ s.order ∨ a ∈ V

/-- Why a search among the vertices of `V` stops. -/
def Fails (next : α → Option (List α)) (V : Finset α) : Stop α → Prop
  | .cycle _ => ∃ a ∈ V, TransGen (Edge next) a a
  | .unknown a => a ∈ V ∧ next a = none
  | .exhausted => False

def Ends (next : α → Option (List α)) (V : Finset α) (s : Search α) (l : List α) :
    Except (Stop α) (Search α) → Prop
  | .ok s' => Visits next V s l s'
  | .error stop => Fails next V stop

omit [DecidableEq α] in
theorem Ordered.start : Ordered next (Search.start : Search α) where
  done a := by simp [Search.start]
  active a := by simp [Search.start]
  nodup := List.nodup_nil
  nodup_stack := List.nodup_nil
  closed before a after h := by simp [Search.start] at h

theorem Ordered.enter (hs : Ordered next s) (ha : s.visitState a = .unseen) :
    Ordered next (s.enter a) := by
  have hstack : a ∉ s.stack := by
    intro h
    rw [(hs.active a).mpr h] at ha
    cases ha
  have horder : a ∉ s.order := by
    intro h
    rw [(hs.done a).mpr h] at ha
    cases ha
  refine ⟨?_, ?_, hs.nodup, ?_, hs.closed⟩
  · intro b
    rcases eq_or_ne b a with rfl | hb
    · simpa [Search.enter] using horder
    · simpa [Search.enter, hb] using hs.done b
  · intro b
    rcases eq_or_ne b a with rfl | hb
    · simp [Search.enter]
    · simpa [Search.enter, hb] using hs.active b
  · simpa [Search.enter, List.nodup_append] using ⟨hs.nodup_stack, fun b hb h => hstack (h ▸ hb)⟩

theorem Ordered.leave (hs : Ordered next s) {stack : List α} (hstack : s.stack = stack ++ [a])
    (hsuccessors : ∀ b, Edge next a b → b ∈ s.order) : Ordered next (s.leave a) := by
  have hnodup := hs.nodup_stack
  rw [hstack, List.nodup_append] at hnodup
  have hnot : a ∉ stack := fun h => hnodup.2.2 a h a (by simp) rfl
  have hactive := (hs.active a).mpr (by simp [hstack])
  have horder : a ∉ s.order := by
    intro h
    rw [(hs.done a).mpr h] at hactive
    cases hactive
  refine ⟨?_, ?_, ?_, ?_, ?_⟩
  · intro b
    rcases eq_or_ne b a with rfl | hb
    · simp [Search.leave]
    · simpa [Search.leave, hb] using hs.done b
  · intro b
    rcases eq_or_ne b a with rfl | hb
    · simpa [Search.leave, hstack] using hnot
    · simpa [Search.leave, hb, hstack] using hs.active b
  · simpa [Search.leave, List.nodup_append] using ⟨hs.nodup, fun b hb h => horder (h ▸ hb)⟩
  · simpa [Search.leave, hstack] using hnodup.1
  · intro before c after hsplit b hedge
    -- the new vertex is the last of the order
    rcases List.eq_nil_or_concat after with rfl | ⟨after', z, rfl⟩
    · obtain ⟨hbefore, hc⟩ := List.append_inj' hsplit rfl
      cases hc
      exact hbefore ▸ hsuccessors b hedge
    · have hsplit' : s.order ++ [a] = (before ++ c :: after') ++ [z] := by
        simpa [Search.leave] using hsplit
      obtain ⟨horder', -⟩ := List.append_inj' hsplit' rfl
      exact hs.closed before c after' horder' b hedge

omit [DecidableEq α] in
theorem Visits.refl (hs : Ordered next s) : Visits next V s [] s :=
  ⟨hs, rfl, List.prefix_rfl, by simp, fun _ ha => .inl ha⟩

omit [DecidableEq α] in
theorem Visits.cons (h : Visits next V s [a] s') (h' : Visits next V s' l s'') :
    Visits next V s (a :: l) s'' := by
  refine ⟨h'.ordered, h'.stack.trans h.stack, h.extends_order.trans h'.extends_order, ?_, ?_⟩
  · intro b hb
    rcases List.mem_cons.mp hb with rfl | hb
    · exact h'.extends_order.subset (h.mem b (by simp))
    · exact h'.mem b hb
  · intro b hb
    rcases h'.inside b hb with hb | hb
    · exact h.inside b hb
    · exact .inr hb

/-- Visits in turn, from what each of them does. -/
theorem ends_foldlM {f : Search α → α → Except (Stop α) (Search α)} (hs : Ordered next s)
    (hf : ∀ s', Ordered next s' → s'.stack = s.stack → ∀ a ∈ l, Ends next V s' [a] (f s' a)) :
    Ends next V s l (l.foldlM f s) := by
  induction l generalizing s with
  | nil => exact .refl hs
  | cons a l ih =>
    rw [List.foldlM_cons]
    have hfirst := hf s hs rfl a (by simp)
    cases hrun : f s a with
    | error stop =>
      rw [hrun] at hfirst
      exact hfirst
    | ok s' =>
      rw [hrun] at hfirst
      have hrest := ih hfirst.ordered fun t ht hstack b hb =>
        hf t ht (hstack.trans hfirst.stack) b (List.mem_cons_of_mem _ hb)
      change Ends next V s (a :: l) (l.foldlM f s')
      cases hloop : l.foldlM f s' with
      | error stop =>
        rw [hloop] at hrest
        exact hrest
      | ok s'' =>
        rw [hloop] at hrest
        exact hfirst.cons hrest

/-- A visit either finishes the vertex or stops for a reason. The stack holds different vertices,
so that the depth is not used up. -/
theorem ends_visit (hclosed : ∀ a ∈ V, ∀ b, Edge next a b → b ∈ V) (hs : Ordered next s)
    (hstack : ∀ b ∈ s.stack, b ∈ V ∧ TransGen (Edge next) b a) (ha : a ∈ V)
    (hdepth : V.card < depth + s.stack.length) : Ends next V s [a] (visit next depth s a) := by
  induction depth generalizing s a with
  | zero =>
    have hcard : s.stack.toFinset.card ≤ V.card :=
      Finset.card_le_card fun b hb => (hstack b (List.mem_toFinset.mp hb)).1
    rw [List.toFinset_card_of_nodup hs.nodup_stack] at hcard
    omega
  | succ depth ih =>
    rw [visit]
    cases hstate : s.visitState a with
    | done =>
      exact ⟨hs, rfl, List.prefix_rfl, by simpa using (hs.done a).mp hstate, fun _ hb => .inl hb⟩
    | active => exact ⟨a, ha, (hstack a ((hs.active a).mp hstate)).2⟩
    | unseen =>
      cases hnext : next a with
      | none => exact ⟨ha, hnext⟩
      | some successors =>
        have hedge : ∀ b ∈ successors, Edge next a b := fun b hb => ⟨successors, hnext, hb⟩
        have hloop : Ends next V (s.enter a) successors
            (successors.foldlM (visit next depth) (s.enter a)) := by
          refine ends_foldlM (hs.enter hstate) fun t ht htstack b hb => ?_
          refine ih ht ?_ (hclosed a ha b (hedge b hb)) ?_
          · intro c hc
            rw [htstack, Search.enter, List.mem_append, List.mem_singleton] at hc
            rcases hc with hc | rfl
            · exact ⟨(hstack c hc).1, (hstack c hc).2.tail (hedge b hb)⟩
            · exact ⟨ha, .single (hedge b hb)⟩
          · rw [htstack, Search.enter, List.length_append, List.length_singleton]
            omega
        change Ends next V s [a]
          (successors.foldlM (visit next depth) (s.enter a) >>= fun s' => .ok (s'.leave a))
        cases hrun : successors.foldlM (visit next depth) (s.enter a) with
        | error stop =>
          rw [hrun] at hloop
          exact hloop
        | ok s' =>
          rw [hrun] at hloop
          have hleave : Ordered next (s'.leave a) := by
            refine hloop.ordered.leave hloop.stack fun b hb => ?_
            obtain ⟨l, hl, hmem⟩ := hb
            rw [hnext] at hl
            cases hl
            exact hloop.mem b hmem
          refine ⟨hleave, ?_, ?_, ?_, ?_⟩
          · simp [Search.leave, hloop.stack, Search.enter]
          · exact hloop.extends_order.trans (List.prefix_append _ _)
          · simp [Search.leave]
          · intro b hb
            rcases List.mem_append.mp hb with hb | hb
            · exact hloop.inside b hb
            · exact .inr (List.mem_singleton.mp hb ▸ ha)

/-- An edge leads to a vertex that is listed earlier. -/
theorem Ordered.idxOf_lt (hs : Ordered next s) (ha : a ∈ s.order) (h : Edge next a b) :
    b ∈ s.order ∧ s.order.idxOf b < s.order.idxOf a := by
  obtain ⟨before, after, hsplit⟩ := List.append_of_mem ha
  have hb := hs.closed before a after hsplit b h
  have hnodup := hs.nodup
  rw [hsplit, List.nodup_append] at hnodup
  have hnot : a ∉ before := fun ha' => hnodup.2.2 a ha' a (by simp) rfl
  rw [hsplit, List.idxOf_append_of_mem hb, List.idxOf_append_of_notMem hnot, List.idxOf_cons_self]
  exact ⟨by simp [hb], by have := List.idxOf_lt_length_of_mem hb; omega⟩

theorem Ordered.not_cycle (hs : Ordered next s) (ha : a ∈ s.order) :
    ¬ TransGen (Edge next) a a := by
  have hlt : ∀ {a b}, a ∈ s.order → TransGen (Edge next) a b →
      b ∈ s.order ∧ s.order.idxOf b < s.order.idxOf a := by
    intro a b ha hab
    induction hab with
    | single h => exact hs.idxOf_lt ha h
    | tail _ h ih =>
      obtain ⟨hmem, hidx⟩ := hs.idxOf_lt ih.1 h
      exact ⟨hmem, hidx.trans ih.2⟩
  intro h
  exact absurd (hlt ha h).2 (lt_irrefl _)

/-- The listing of a search over all vertices. -/
structure IsOrder (next : α → Option (List α)) (V : Finset α) (order : List α) : Prop where
  mem : ∀ a, a ∈ order ↔ a ∈ V
  nodup : order.Nodup
  earlier : ∀ a ∈ V, ∀ b, Edge next a b → order.idxOf b < order.idxOf a

variable {order roots : List α}

/-- The search over all vertices lists them, or there is a cycle. -/
theorem visitAll_cases (hclosed : ∀ a ∈ V, ∀ b, Edge next a b → b ∈ V)
    (hknown : ∀ a ∈ V, next a ≠ none) (hroots : ∀ a, a ∈ roots ↔ a ∈ V) (hdepth : V.card < depth) :
    (∃ order, visitAll next depth roots = .ok order ∧ IsOrder next V order ∧
      ∀ a ∈ V, ¬ TransGen (Edge next) a a) ∨
    (∃ path, visitAll next depth roots = .error (.cycle path) ∧
      ∃ a ∈ V, TransGen (Edge next) a a) := by
  have hends : Ends next V Search.start roots (roots.foldlM (visit next depth) Search.start) := by
    refine ends_foldlM .start fun s' hs' hstack a ha => ?_
    refine ends_visit hclosed hs' ?_ ((hroots a).mp ha) ?_
    · simp [hstack, Search.start]
    · simpa [hstack, Search.start] using hdepth
  rw [visitAll]
  cases hrun : roots.foldlM (visit next depth) Search.start with
  | ok s =>
    rw [hrun] at hends
    have hmem : ∀ a, a ∈ s.order ↔ a ∈ V := by
      intro a
      refine ⟨fun ha => ?_, fun ha => hends.mem a ((hroots a).mpr ha)⟩
      rcases hends.inside a ha with ha | ha
      · cases ha
      · exact ha
    refine .inl ⟨s.order, rfl, ⟨hmem, hends.ordered.nodup, ?_⟩, ?_⟩
    · intro a ha b hb
      exact (hends.ordered.idxOf_lt ((hmem a).mpr ha) hb).2
    · intro a ha
      exact hends.ordered.not_cycle ((hmem a).mpr ha)
  | error stop =>
    rw [hrun] at hends
    cases stop with
    | cycle path => exact .inr ⟨path, rfl, hends⟩
    | unknown a => exact (hknown a hends.1 hends.2).elim
    | exhausted => exact hends.elim

end StyioPlatform.DepthFirst
