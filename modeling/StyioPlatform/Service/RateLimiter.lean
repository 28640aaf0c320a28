import Mathlib.Algebra.Group.Int.Defs
import Mathlib.Data.String.Basic
import StyioPlatform.Lib.OrderedMap
import StyioPlatform.Lib.Runs

/-! The rate limiter of the router (`OpsManager.cpp`): calls are counted in windows that start with
a call, one window for each pair of a subject and an operation. -/
namespace StyioPlatform.RateLimiter

structure Bucket where
  windowStart : ℤ := 0
  count : ℤ := 0
  deriving DecidableEq

abbrev Buckets := OrderedMap String Bucket

/-- A request of one subject for one operation, and the time in seconds. -/
structure Call where
  subject : String
  operation : String
  nowSeconds : ℤ
  deriving DecidableEq

/-- `subject + ":" + operation`. -/
def Call.key (c : Call) : String := c.subject ++ ":" ++ c.operation

section Allow

variable (limit windowSeconds : ℤ)

/-- The window of the bucket is over, or none has started. -/
def restarts (b : Bucket) (nowSeconds : ℤ) : Bool :=
  decide (b.windowStart = 0) || decide (windowSeconds ≤ nowSeconds - b.windowStart)

/-- One call against its bucket; the counter is a signed integer of 32 bits. -/
def allowBucket (b : Bucket) (nowSeconds : ℤ) : Bool × Bucket :=
  let b := if restarts windowSeconds b nowSeconds then { windowStart := nowSeconds } else b
  let count := (b.count + 1).bmod (2 ^ 32)
  (decide (count ≤ limit), { b with count })

/-- `PlatformRateLimiter::Allow`. -/
def allow (buckets : Buckets) (c : Call) : Bool × Buckets :=
  if limit ≤ 0 ∨ windowSeconds ≤ 0 then (true, buckets)
  else
    let r := allowBucket limit windowSeconds ((buckets.get c.key).getD {}) c.nowSeconds
    (r.1, buckets.set c.key r.2)

/-- The buckets after the call. -/
def step (buckets : Buckets) (c : Call) : Buckets := (allow limit windowSeconds buckets c).2

def after (calls : List Call) : Buckets := calls.foldl (step limit windowSeconds) .empty

/-- The answer to a call after others. -/
def answer (before : List Call) (c : Call) : Bool :=
  (allow limit windowSeconds (after limit windowSeconds before) c).1

/-- The buckets after the calls, and the calls with their answers. -/
def answered (calls : List Call) : Buckets × List (Call × Bool) :=
  calls.foldl (fun x c =>
    let r := allow limit windowSeconds x.1 c
    (r.2, x.2 ++ [(c, r.1)])) (.empty, [])

/-- The calls with their answers. -/
def outcomes (calls : List Call) : List (Call × Bool) := (answered limit windowSeconds calls).2

end Allow

/-- The calls are of one subject for one operation. -/
def samePair (c e : Call) : Bool := decide (c.subject = e.subject) && decide (c.operation = e.operation)

variable {limit windowSeconds nowSeconds : ℤ} {c e : Call} {calls before : List Call} {b : Bucket}
  {marks : List (ℤ × Bool)} {times : List ℤ}

theorem after_concat : after limit windowSeconds (calls ++ [c]) =
    step limit windowSeconds (after limit windowSeconds calls) c := by
  simp [after]

theorem answered_fst : (answered limit windowSeconds calls).1 = after limit windowSeconds calls := by
  induction calls using List.reverseRecOn with
  | nil => rfl
  | append_singleton calls c ih =>
    rw [after_concat, ← ih]
    simp [answered, step]

theorem outcomes_concat : outcomes limit windowSeconds (calls ++ [c]) =
    outcomes limit windowSeconds calls ++ [(c, answer limit windowSeconds calls c)] := by
  have hfst := @answered_fst limit windowSeconds calls
  rw [answer, ← hfst]
  simp [outcomes, answered]

theorem outcomes_map : (outcomes limit windowSeconds calls).map (·.1) = calls := by
  induction calls using List.reverseRecOn with
  | nil => rfl
  | append_singleton calls c ih => simp [outcomes_concat, ih]

section Pairs

/-- A text without the separator is what stands after the last one. -/
theorem append_sep_inj {α : Type} {sep : α} {l l' m m' : List α} (hm : sep ∉ m) (hm' : sep ∉ m')
    (h : l ++ sep :: m = l' ++ sep :: m') : l = l' ∧ m = m' := by
  rcases List.append_eq_append_iff.mp h with ⟨k, rfl, hk⟩ | ⟨k, rfl, hk⟩
  · cases k with
    | nil => simpa using hk
    | cons x k =>
      obtain ⟨-, rfl⟩ := List.cons.inj hk
      exact (hm (by simp)).elim
  · cases k with
    | nil => simpa [eq_comm] using hk
    | cons x k =>
      obtain ⟨-, rfl⟩ := List.cons.inj hk
      exact (hm' (by simp)).elim

theorem samePair_iff : samePair c e = true ↔ c.subject = e.subject ∧ c.operation = e.operation := by
  simp [samePair]

/-- Pairs have buckets of their own. -/
theorem key_eq_iff (hc : ':' ∉ c.operation.toList) (he : ':' ∉ e.operation.toList) :
    c.key = e.key ↔ samePair c e = true := by
  rw [samePair_iff]
  constructor
  · intro h
    have hlist := congrArg String.toList h
    simp only [Call.key, String.toList_append, List.append_assoc] at hlist
    obtain ⟨hsubject, hoperation⟩ := append_sep_inj hc he hlist
    exact ⟨String.toList_inj.mp hsubject, String.toList_inj.mp hoperation⟩
  · rintro ⟨hsubject, hoperation⟩
    rw [Call.key, Call.key, hsubject, hoperation]

end Pairs

section Bucket

variable (limit windowSeconds) in
/-- One more call against the bucket of a pair, with its answer. -/
def record (x : Bucket × List (ℤ × Bool)) (nowSeconds : ℤ) : Bucket × List (ℤ × Bool) :=
  let r := allowBucket limit windowSeconds x.1 nowSeconds
  (r.2, x.2 ++ [(nowSeconds, r.1)])

variable (limit windowSeconds) in
/-- The bucket of a pair after calls at these times, and the answers. -/
def recorded (times : List ℤ) : Bucket × List (ℤ × Bool) :=
  times.foldl (record limit windowSeconds) ({}, [])

theorem recorded_concat : recorded limit windowSeconds (times ++ [nowSeconds]) =
    record limit windowSeconds (recorded limit windowSeconds times) nowSeconds := by
  simp [recorded]

/-- The times of the calls of a pair. -/
def timesOf (c : Call) (calls : List Call) : List ℤ :=
  (calls.filter (samePair c)).map (·.nowSeconds)

theorem timesOf_concat : timesOf c (calls ++ [e]) =
    timesOf c calls ++ if samePair c e then [e.nowSeconds] else [] := by
  cases hpair : samePair c e <;> simp [timesOf, List.filter_singleton, hpair]

/-- A bucket sees the calls of its pair and no others. -/
theorem get_after (hlimit : 0 < limit) (hwindow : 0 < windowSeconds)
    (hc : ':' ∉ c.operation.toList) (hcalls : ∀ e ∈ calls, ':' ∉ e.operation.toList) :
    ((after limit windowSeconds calls).get c.key).getD {} =
      (recorded limit windowSeconds (timesOf c calls)).1 := by
  induction calls using List.reverseRecOn with
  | nil => rfl
  | append_singleton calls e ih =>
    have hbefore := ih fun e he => hcalls e (by simp [he])
    have hkey := key_eq_iff hc (hcalls e (by simp))
    rw [after_concat, step, allow, if_neg (by omega), timesOf_concat]
    cases hpair : samePair c e with
    | true =>
      have hsame : c.key = e.key := hkey.mpr hpair
      rw [if_pos rfl, recorded_concat, ← hsame]
      simp [record, hbefore]
    | false =>
      have hother : c.key ≠ e.key := fun h => by simp [hkey.mp h] at hpair
      simpa [OrderedMap.get_set_of_ne hother] using hbefore

theorem answer_eq (hlimit : 0 < limit) (hwindow : 0 < windowSeconds)
    (hc : ':' ∉ c.operation.toList) (hcalls : ∀ e ∈ calls, ':' ∉ e.operation.toList) :
    answer limit windowSeconds calls c = (allowBucket limit windowSeconds
      (recorded limit windowSeconds (timesOf c calls)).1 c.nowSeconds).1 := by
  have hget := get_after hlimit hwindow hc hcalls
  rw [answer, allow, if_neg (by omega), hget]

/-- The answers to the calls of a pair are those of its bucket. -/
theorem outcomes_filter (hlimit : 0 < limit) (hwindow : 0 < windowSeconds)
    (hc : ':' ∉ c.operation.toList) (hcalls : ∀ e ∈ calls, ':' ∉ e.operation.toList) :
    ((outcomes limit windowSeconds calls).filter fun x => samePair c x.1).map
      (fun x => (x.1.nowSeconds, x.2)) = (recorded limit windowSeconds (timesOf c calls)).2 := by
  induction calls using List.reverseRecOn with
  | nil => rfl
  | append_singleton calls e ih =>
    have hbefore := ih fun e he => hcalls e (by simp [he])
    have hplain : ∀ e ∈ calls, ':' ∉ e.operation.toList := fun e he => hcalls e (by simp [he])
    rw [outcomes_concat, List.filter_append, List.map_append, hbefore, timesOf_concat,
      List.filter_singleton]
    cases hpair : samePair c e with
    | true =>
      have htimes : timesOf e calls = timesOf c calls := by
        obtain ⟨hsubject, hoperation⟩ := samePair_iff.mp hpair
        rw [timesOf, timesOf]
        congr 2
        funext x
        rw [samePair, samePair, hsubject, hoperation]
      rw [answer_eq hlimit hwindow (hcalls e (by simp)) hplain, htimes, cond_true,
        List.map_singleton, if_pos rfl, recorded_concat]
      rfl
    | false => simp

end Bucket

section Windows

/-- What is known of a bucket and of the answers that it gave. -/
structure Windowed (limit windowSeconds : ℤ) (b : Bucket) (marks : List (ℤ × Bool)) : Prop where
  started : marks = [] ∧ b = {} ∨ 0 < b.windowStart ∧ ∃ m ∈ marks, m.1 = b.windowStart
  within : ∀ m ∈ marks, m.1 < b.windowStart + windowSeconds
  count : b.count = marks.countP fun m => decide (b.windowStart ≤ m.1)
  current : (marks.countP fun m => m.2 && decide (b.windowStart ≤ m.1) : ℤ) ≤ limit
  previous : ∀ t, b.windowStart - windowSeconds < t →
    (marks.countP fun m => m.2 && decide (t ≤ m.1 ∧ m.1 < b.windowStart) : ℤ) ≤ limit
  bounded : ∀ t, (marks.countP fun m =>
    m.2 && decide (t ≤ m.1 ∧ m.1 < t + windowSeconds) : ℤ) ≤ 2 * limit

theorem countP_le_add {α : Type} {p q r : α → Bool} {l : List α}
    (h : ∀ a ∈ l, p a = true → q a = true ∨ r a = true) : l.countP p ≤ l.countP q + l.countP r := by
  induction l with
  | nil => simp
  | cons a l ih =>
    have hrest := ih fun b hb => h b (List.mem_cons_of_mem a hb)
    have hfirst := h a List.mem_cons_self
    simp only [List.countP_cons]
    cases hp : p a <;> cases hq : q a <;> cases hr : r a <;> simp_all <;> omega

/-- A new window starts after the calls of the one before. -/
theorem Windowed.restart (h : Windowed limit windowSeconds b marks) (hlimit : 0 < limit)
    (hwindow : 0 < windowSeconds) (hnow : 0 < nowSeconds) (hrestarts : restarts windowSeconds b nowSeconds = true) :
    Windowed limit windowSeconds { windowStart := nowSeconds, count := 1 }
      (marks ++ [(nowSeconds, true)]) := by
  have hpast : ∀ m ∈ marks, m.1 < nowSeconds ∧ b.windowStart ≤ nowSeconds - windowSeconds := by
    intro m hm
    rcases h.started with ⟨rfl, -⟩ | ⟨hpos, -⟩
    · cases hm
    · have hwithin := h.within m hm
      simp only [restarts, Bool.or_eq_true, decide_eq_true_eq] at hrestarts
      omega
  have hcurrent : ∀ t, nowSeconds - windowSeconds < t → ∀ p : ℤ → Bool, (∀ n, p n → t ≤ n) →
      (marks.countP fun m => m.2 && p m.1 : ℤ) ≤ limit := by
    intro t ht p hp
    have hle : marks.countP (fun m => m.2 && p m.1) ≤
        marks.countP fun m => m.2 && decide (b.windowStart ≤ m.1) := by
      refine List.countP_mono_left fun m hm hcounted => ?_
      simp only [Bool.and_eq_true, decide_eq_true_eq] at hcounted ⊢
      have hstart := (hpast m hm).2
      have hlater := hp _ hcounted.2
      exact ⟨hcounted.1, by omega⟩
    have := h.current
    omega
  constructor
  · exact Or.inr ⟨hnow, (nowSeconds, true), by simp, rfl⟩
  · intro m hm
    rcases List.mem_append.mp hm with hm | hm
    · have := (hpast m hm).1
      dsimp only
      omega
    · rw [List.mem_singleton.mp hm]
      dsimp only
      omega
  · have hnone : marks.countP (fun m => decide (nowSeconds ≤ m.1)) = 0 := by
      rw [List.countP_eq_zero]
      intro m hm
      have := (hpast m hm).1
      simpa using this
    simp [List.countP_append, hnone]
  · have hnone : marks.countP (fun m => m.2 && decide (nowSeconds ≤ m.1)) = 0 := by
      rw [List.countP_eq_zero]
      intro m hm hcounted
      have := (hpast m hm).1
      simp only [Bool.and_eq_true, decide_eq_true_eq] at hcounted
      omega
    simp only [List.countP_append, hnone]
    simp
    omega
  · intro t ht
    have hold := hcurrent t ht (fun n => decide (t ≤ n ∧ n < nowSeconds)) (by simp; omega)
    simpa [List.countP_append] using hold
  · intro t
    have hbounded := h.bounded t
    by_cases hin : t ≤ nowSeconds ∧ nowSeconds < t + windowSeconds
    · have hold := hcurrent t (by omega) (fun n => decide (t ≤ n ∧ n < t + windowSeconds))
        (by simp; omega)
      rw [List.countP_append]
      simp [hin]
      simp at hold
      omega
    · rw [List.countP_append]
      simpa [hin] using hbounded

/-- A further call counts in the window that has started. -/
theorem Windowed.continue (h : Windowed limit windowSeconds b marks)
    (hle : ∀ m ∈ marks, m.1 ≤ nowSeconds) (hrestarts : restarts windowSeconds b nowSeconds = false) :
    Windowed limit windowSeconds { b with count := b.count + 1 }
      (marks ++ [(nowSeconds, decide (b.count + 1 ≤ limit))]) := by
  simp only [restarts, Bool.or_eq_false_iff, decide_eq_false_iff_not] at hrestarts
  obtain ⟨hpos, first, hfirst, hstart⟩ : 0 < b.windowStart ∧ ∃ m ∈ marks, m.1 = b.windowStart := by
    rcases h.started with ⟨-, rfl⟩ | hstarted
    · exact (hrestarts.1 rfl).elim
    · exact hstarted
  have hnow := hle first hfirst
  have hcounted : (marks.countP fun m => m.2 && decide (b.windowStart ≤ m.1)) ≤
      marks.countP fun m => decide (b.windowStart ≤ m.1) := by
    refine List.countP_mono_left fun m _ hm => ?_
    simp only [Bool.and_eq_true] at hm
    exact hm.2
  have hcount := h.count
  have hcurrent : ((marks.countP fun m => m.2 && decide (b.windowStart ≤ m.1) : ℤ) +
      if b.count + 1 ≤ limit then 1 else 0) ≤ limit := by
    have := h.current
    split <;> omega
  constructor
  · exact Or.inr ⟨hpos, first, by simp [hfirst], hstart⟩
  · intro m hm
    rcases List.mem_append.mp hm with hm | hm
    · exact h.within m hm
    · rw [List.mem_singleton.mp hm]
      dsimp only
      omega
  · have hlast : b.windowStart ≤ nowSeconds := by omega
    simp [List.countP_append, hlast, hcount]
  · have hlast : b.windowStart ≤ nowSeconds := by omega
    rw [List.countP_append, List.countP_singleton, Int.natCast_add]
    by_cases hallowed : b.count + 1 ≤ limit
    · simpa [hlast, hallowed] using hcurrent
    · simpa [hlast, hallowed] using hcurrent
  · intro t ht
    have hlast : ¬ nowSeconds < b.windowStart := by omega
    rw [List.countP_append]
    simpa [hlast] using h.previous t ht
  · intro t
    have hbounded := h.bounded t
    rw [List.countP_append, List.countP_singleton, Int.natCast_add]
    by_cases hin : t ≤ nowSeconds ∧ nowSeconds < t + windowSeconds
    · -- the interval meets this window and at most one before it
      have hprevious := h.previous t (by omega)
      have hsplit : marks.countP (fun m => m.2 && decide (t ≤ m.1 ∧ m.1 < t + windowSeconds)) ≤
          marks.countP (fun m => m.2 && decide (t ≤ m.1 ∧ m.1 < b.windowStart)) +
            marks.countP fun m => m.2 && decide (b.windowStart ≤ m.1) := by
        refine countP_le_add fun m _ hm => ?_
        simp only [Bool.and_eq_true, decide_eq_true_eq] at hm ⊢
        obtain ⟨hmark, hlow, -⟩ := hm
        rcases lt_or_ge m.1 b.windowStart with hlt | hge
        · exact Or.inl ⟨hmark, hlow, hlt⟩
        · exact Or.inr ⟨hmark, hge⟩
      by_cases hallowed : b.count + 1 ≤ limit
      · simp only [hallowed, if_true, hin, and_self, decide_true, Bool.and_self] at hcurrent ⊢
        omega
      · simp only [hallowed, decide_false, Bool.false_and, Bool.false_eq_true, if_false]
        simpa using hbounded
    · simpa [hin] using hbounded

/-- The counter of the bucket is not at its end, or starts again. -/
def Counts (windowSeconds : ℤ) (b : Bucket) (nowSeconds : ℤ) : Prop :=
  restarts windowSeconds b nowSeconds = true ∨ b.count < 2 ^ 31 - 1

theorem Windowed.count_nonneg (h : Windowed limit windowSeconds b marks) : 0 ≤ b.count := by
  have := h.count
  omega

theorem allowBucket_of_restarts (hlimit : 0 < limit)
    (hrestarts : restarts windowSeconds b nowSeconds = true) :
    allowBucket limit windowSeconds b nowSeconds =
      (true, { windowStart := nowSeconds, count := 1 }) := by
  have hone : (0 + 1 : ℤ).bmod (2 ^ 32) = 1 := by decide
  simp only [allowBucket, hrestarts, if_true, hone, Prod.mk.injEq, decide_eq_true_eq, and_true]
  omega

theorem allowBucket_of_counts (hcount : 0 ≤ b.count) (hfits : b.count < 2 ^ 31 - 1)
    (hrestarts : restarts windowSeconds b nowSeconds = false) :
    allowBucket limit windowSeconds b nowSeconds =
      (decide (b.count + 1 ≤ limit), { b with count := b.count + 1 }) := by
  have hbmod : (b.count + 1).bmod (2 ^ 32) = b.count + 1 := by
    rw [Int.bmod_eq_of_le] <;> omega
  simp only [allowBucket, hrestarts, Bool.false_eq_true, if_false, hbmod]

theorem Windowed.step (h : Windowed limit windowSeconds b marks) (hlimit : 0 < limit)
    (hwindow : 0 < windowSeconds) (hnow : 0 < nowSeconds) (hle : ∀ m ∈ marks, m.1 ≤ nowSeconds)
    (hcounts : Counts windowSeconds b nowSeconds) :
    Windowed limit windowSeconds (record limit windowSeconds (b, marks) nowSeconds).1
      (record limit windowSeconds (b, marks) nowSeconds).2 := by
  cases hrestarts : restarts windowSeconds b nowSeconds with
  | true =>
    rw [record, allowBucket_of_restarts hlimit hrestarts]
    exact h.restart hlimit hwindow hnow hrestarts
  | false =>
    have hfits : b.count < 2 ^ 31 - 1 := hcounts.resolve_left (by simp [hrestarts])
    rw [record, allowBucket_of_counts h.count_nonneg hfits hrestarts]
    exact h.continue hle hrestarts

/-- A call is denied only after as many calls as the limit in the window. -/
theorem Windowed.denied (h : Windowed limit windowSeconds b marks) (hlimit : 0 < limit)
    (hcounts : Counts windowSeconds b nowSeconds)
    (hdenied : (allowBucket limit windowSeconds b nowSeconds).1 = false) :
    limit ≤ marks.countP fun m => decide (nowSeconds - m.1 < windowSeconds) := by
  cases hrestarts : restarts windowSeconds b nowSeconds with
  | true =>
    rw [allowBucket_of_restarts hlimit hrestarts] at hdenied
    cases hdenied
  | false =>
    have hfits : b.count < 2 ^ 31 - 1 := hcounts.resolve_left (by simp [hrestarts])
    rw [allowBucket_of_counts h.count_nonneg hfits hrestarts, decide_eq_false_iff_not] at hdenied
    simp only [restarts, Bool.or_eq_false_iff, decide_eq_false_iff_not] at hrestarts
    have hle : marks.countP (fun m => decide (b.windowStart ≤ m.1)) ≤
        marks.countP fun m => decide (nowSeconds - m.1 < windowSeconds) := by
      refine List.countP_mono_left fun m _ hm => ?_
      rw [decide_eq_true_eq] at hm ⊢
      omega
    have := h.count
    omega

theorem windowed_start (hlimit : 0 < limit) : Windowed limit windowSeconds {} [] where
  started := Or.inl ⟨rfl, rfl⟩
  within := nofun
  count := rfl
  current := by simp; omega
  previous := by simp; omega
  bounded := by simp; omega

theorem recorded_times : (recorded limit windowSeconds times).2.map (·.1) = times := by
  induction times using List.reverseRecOn with
  | nil => rfl
  | append_singleton times t ih => simp [recorded_concat, record, ih]

/-- Over any calls at times that do not go back, as long as the counter does not reach its end. -/
theorem windowed_recorded (hlimit : 0 < limit) (hwindow : 0 < windowSeconds)
    (hpos : ∀ t ∈ times, 0 < t) (horder : times.Pairwise (· ≤ ·))
    (hcounts : ∀ before t rest, times = before ++ t :: rest →
      Counts windowSeconds (recorded limit windowSeconds before).1 t) :
    Windowed limit windowSeconds (recorded limit windowSeconds times).1
      (recorded limit windowSeconds times).2 := by
  induction times using List.reverseRecOn with
  | nil => exact windowed_start hlimit
  | append_singleton times t ih =>
    rw [List.pairwise_append] at horder
    have hbefore := ih (fun t ht => hpos t (by simp [ht])) horder.1 fun before t' rest h =>
      hcounts before t' (rest ++ [t]) (by simp [h])
    rw [recorded_concat]
    refine hbefore.step hlimit hwindow (hpos t (by simp)) (fun m hm => ?_) (hcounts times t [] rfl)
    have hmem : m.1 ∈ times := by
      rw [← @recorded_times limit windowSeconds times]
      exact List.mem_map_of_mem hm
    exact horder.2.2 m.1 hmem t (by simp)

end Windows

section Runs

/-- The limiter keeps pairs apart, allows at most two limits of calls in one window, and denies only
calls that come after as many others as the limit. -/
structure LimitsRate (limit windowSeconds : ℤ) (calls : List Call) : Prop where
  isolated : ∀ before c rest, calls = before ++ c :: rest →
    answer limit windowSeconds before c = answer limit windowSeconds (before.filter (samePair c)) c
  bounded : ∀ c t, ((outcomes limit windowSeconds calls).countP fun x => x.2 && (samePair c x.1 &&
    decide (t ≤ x.1.nowSeconds ∧ x.1.nowSeconds < t + windowSeconds)) : ℤ) ≤ 2 * limit
  denied : ∀ before c rest, calls = before ++ c :: rest →
    answer limit windowSeconds before c = false →
    limit ≤ before.countP fun e =>
      samePair c e && decide (c.nowSeconds - e.nowSeconds < windowSeconds)

/-- Before each call the bucket of its pair has counted fewer calls than its counter can hold. -/
def CallCounts (windowSeconds : ℤ) (buckets : Buckets) (c : Call) : Prop :=
  Counts windowSeconds ((buckets.get c.key).getD {}) c.nowSeconds

/-- The calls of a pair among others, cut at a time. -/
theorem exists_of_timesOf {first : List ℤ} {t : ℤ} {rest : List ℤ}
    (h : timesOf c calls = first ++ t :: rest) : ∃ before e after, calls = before ++ e :: after ∧
      samePair c e = true ∧ e.nowSeconds = t ∧ timesOf c before = first := by
  induction calls generalizing first with
  | nil => simp [timesOf] at h
  | cons d calls ih =>
    cases hpair : samePair c d with
    | false =>
      have hskip : timesOf c (d :: calls) = timesOf c calls := by simp [timesOf, hpair]
      obtain ⟨before, e, after, rfl, he, ht, hfirst⟩ := ih (hskip.symm.trans h)
      exact ⟨d :: before, e, after, rfl, he, ht, by simpa [timesOf, hpair] using hfirst⟩
    | true =>
      have htake : timesOf c (d :: calls) = d.nowSeconds :: timesOf c calls := by
        simp [timesOf, hpair]
      rw [htake] at h
      cases first with
      | nil =>
        obtain ⟨hd, -⟩ := List.cons.inj h
        exact ⟨[], d, calls, rfl, hpair, hd, rfl⟩
      | cons t' first =>
        obtain ⟨rfl, htail⟩ := List.cons.inj h
        obtain ⟨before, e, after, rfl, he, ht, hfirst⟩ := ih htail
        exact ⟨d :: before, e, after, rfl, he, ht, by simp [timesOf, hpair, ← hfirst]⟩

theorem timesOf_filter : timesOf c (calls.filter (samePair c)) = timesOf c calls := by
  simp [timesOf]

/-- The calls of a pair keep its counter from its end when all calls do. -/
theorem counts_of_along (hlimit : 0 < limit) (hwindow : 0 < windowSeconds)
    (hops : ∀ e ∈ calls, ':' ∉ e.operation.toList)
    (hcounts : Along (step limit windowSeconds) (CallCounts windowSeconds) calls .empty) :
    ∀ first t rest, timesOf c calls = first ++ t :: rest →
      Counts windowSeconds (recorded limit windowSeconds first).1 t := by
  intro first t rest h
  obtain ⟨before, e, after, rfl, hpair, rfl, rfl⟩ := exists_of_timesOf h
  have hcall := hcounts.split
  have htimes : timesOf c before = timesOf e before := by
    obtain ⟨hsubject, hoperation⟩ := samePair_iff.mp hpair
    rw [timesOf, timesOf]
    congr 2
    funext x
    rw [samePair, samePair, hsubject, hoperation]
  rw [htimes, ← get_after hlimit hwindow (hops e (by simp)) fun d hd => hops d (by simp [hd])]
  exact hcall

/-- Calls at positive times that do not go back, for operations without the separator, are limited
as long as no counter reaches its end. -/
theorem limitsRate_of_counts (hlimit : 0 < limit) (hwindow : 0 < windowSeconds)
    (hpos : ∀ c ∈ calls, 0 < c.nowSeconds)
    (horder : calls.Pairwise fun c e => c.nowSeconds ≤ e.nowSeconds)
    (hops : ∀ c ∈ calls, ':' ∉ c.operation.toList)
    (hcounts : Along (step limit windowSeconds) (CallCounts windowSeconds) calls .empty) :
    LimitsRate limit windowSeconds calls := by
  have hwindowed : ∀ c before rest, calls = before ++ rest → ':' ∉ c.operation.toList →
      Windowed limit windowSeconds (recorded limit windowSeconds (timesOf c before)).1
        (recorded limit windowSeconds (timesOf c before)).2 := by
    intro c before rest hcalls hc
    refine windowed_recorded hlimit hwindow ?_ ?_ ?_
    · intro t ht
      obtain ⟨e, he, rfl⟩ := List.mem_map.mp ht
      exact hpos e (by simp [hcalls, (List.mem_filter.mp he).1])
    · rw [hcalls, List.pairwise_append] at horder
      rw [timesOf, List.pairwise_map]
      exact horder.1.sublist List.filter_sublist
    · intro first t after h
      refine counts_of_along (c := c) hlimit hwindow hops hcounts first t (after ++ timesOf c rest) ?_
      rw [hcalls, timesOf, List.filter_append, List.map_append, ← timesOf, ← timesOf, h]
      simp
  constructor
  · intro before c rest hcalls
    have hc : ':' ∉ c.operation.toList := hops c (by simp [hcalls])
    have hbefore : ∀ e ∈ before, ':' ∉ e.operation.toList := fun e he => hops e (by simp [hcalls, he])
    rw [answer_eq hlimit hwindow hc hbefore,
      answer_eq hlimit hwindow hc fun e he => hbefore e (List.mem_filter.mp he).1, timesOf_filter]
  · intro c t
    by_cases hc : ':' ∈ c.operation.toList
    · -- no call is of this pair
      have hnone : (outcomes limit windowSeconds calls).countP (fun x => x.2 && (samePair c x.1 &&
          decide (t ≤ x.1.nowSeconds ∧ x.1.nowSeconds < t + windowSeconds))) = 0 := by
        rw [List.countP_eq_zero]
        intro x hx hcounted
        have hmem : x.1 ∈ calls := by
          rw [← @outcomes_map limit windowSeconds calls]
          exact List.mem_map_of_mem hx
        simp only [Bool.and_eq_true, samePair_iff] at hcounted
        exact hops x.1 hmem (hcounted.2.1.2 ▸ hc)
      omega
    · have hbounded := (hwindowed c calls [] (by simp) hc).bounded t
      rw [← outcomes_filter hlimit hwindow hc hops, List.countP_map, List.countP_filter] at hbounded
      refine le_trans (Int.ofNat_le.mpr (List.countP_mono_left fun x _ hx => ?_)) hbounded
      simp only [Bool.and_eq_true, Function.comp_apply] at hx ⊢
      exact ⟨⟨hx.1, hx.2.2⟩, hx.2.1⟩
  · intro before c rest hcalls hdenied
    have hc : ':' ∉ c.operation.toList := hops c (by simp [hcalls])
    have hbefore : ∀ e ∈ before, ':' ∉ e.operation.toList := fun e he => hops e (by simp [hcalls, he])
    rw [answer_eq hlimit hwindow hc hbefore] at hdenied
    have hcall : Counts windowSeconds (recorded limit windowSeconds (timesOf c before)).1
        c.nowSeconds := by
      rw [hcalls] at hcounts
      rw [← get_after hlimit hwindow hc hbefore]
      exact hcounts.split
    have hdeny := (hwindowed c before (c :: rest) hcalls hc).denied hlimit hcall hdenied
    have htimes : (recorded limit windowSeconds (timesOf c before)).2.countP
        (fun m => decide (c.nowSeconds - m.1 < windowSeconds)) =
          before.countP fun e =>
            samePair c e && decide (c.nowSeconds - e.nowSeconds < windowSeconds) := by
      have hmap : (recorded limit windowSeconds (timesOf c before)).2.countP
          (fun m => decide (c.nowSeconds - m.1 < windowSeconds)) =
            ((recorded limit windowSeconds (timesOf c before)).2.map (·.1)).countP
              fun t => decide (c.nowSeconds - t < windowSeconds) := by
        rw [List.countP_map]
        rfl
      rw [hmap, recorded_times, timesOf, List.countP_map, List.countP_filter]
      exact List.countP_congr fun e _ => by simp [and_comm]
    rwa [htimes] at hdeny

/-- A request every other second, for a window of three seconds and one request in each. -/
def spacedCalls : List Call := [1, 3, 5].map fun t => ⟨"user", "getJob", t⟩

instance (b : Bucket) (t : ℤ) : Decidable (Counts windowSeconds b t) :=
  inferInstanceAs (Decidable (_ ∨ _))

instance (buckets : Buckets) (c : Call) : Decidable (CallCounts windowSeconds buckets c) :=
  inferInstanceAs (Decidable (Counts _ _ _))

theorem spacedCalls_limitsRate : LimitsRate 1 3 spacedCalls :=
  limitsRate_of_counts (by decide) (by decide) (by decide) (by decide) (by decide)
    (by decide +kernel)

/-- A request that comes again and again in one second. -/
def repeated : Call := ⟨"user", "getJob", 1⟩

theorem recorded_repeated {n : ℕ} : (recorded 1 60 (List.replicate (n + 1) 1)).1 =
    { windowStart := 1, count := ((n : ℤ) + 1).bmod (2 ^ 32) } := by
  induction n with
  | zero => rfl
  | succ n ih =>
    rw [List.replicate_succ', recorded_concat, record, ih]
    have hgoes : restarts 60 { windowStart := 1, count := ((n : ℤ) + 1).bmod (2 ^ 32) } 1 = false := by
      simp [restarts]
    simp only [allowBucket, hgoes, Bool.false_eq_true, if_false, Bucket.mk.injEq, true_and]
    rw [Int.bmod_add_bmod]
    push_cast
    rfl

theorem answer_repeated {n : ℕ} (h : ((n : ℤ) + 2).bmod (2 ^ 32) ≤ 1) :
    answer 1 60 (List.replicate (n + 1) repeated) repeated = true := by
  have htimes : timesOf repeated (List.replicate (n + 1) repeated) = List.replicate (n + 1) 1 := by
    simp [timesOf, samePair, repeated]
  have hgoes : restarts 60 { windowStart := 1, count := ((n : ℤ) + 1).bmod (2 ^ 32) } 1 = false := by
    simp [restarts]
  have hcount : (((n : ℤ) + 1).bmod (2 ^ 32) + 1).bmod (2 ^ 32) ≤ 1 := by
    rw [Int.bmod_add_bmod, Int.add_assoc]
    exact h
  rw [answer_eq (by decide) (by decide) (by decide), htimes, recorded_repeated, allowBucket,
    show repeated.nowSeconds = 1 from rfl, hgoes]
  · simpa using hcount
  · intro e he
    rw [List.eq_of_mem_replicate he]
    decide

/-- The counter wraps around after `2 ^ 31 - 1` requests in one second, and the limit of one request
is passed. -/
theorem repeated_not_limitsRate : ¬ LimitsRate 1 60 (List.replicate (2 ^ 31 + 1) repeated) := by
  intro h
  have hfirst : ∀ n, 1 ≤ (outcomes 1 60 (List.replicate (n + 1) repeated)).countP fun x =>
      x.2 && (samePair repeated x.1 && decide (1 ≤ x.1.nowSeconds ∧ x.1.nowSeconds < 1 + 60)) := by
    intro n
    induction n with
    | zero => decide +kernel
    | succ n ih =>
      rw [List.replicate_succ', outcomes_concat, List.countP_append]
      omega
  have hlast : ∀ n : ℕ, n + 1 = 2 ^ 31 - 1 →
      3 ≤ (outcomes 1 60 (List.replicate (n + 1 + 1 + 1) repeated)).countP fun x =>
        x.2 && (samePair repeated x.1 && decide (1 ≤ x.1.nowSeconds ∧ x.1.nowSeconds < 1 + 60)) := by
    intro n hn
    have hwrapped : answer 1 60 (List.replicate (n + 1) repeated) repeated = true :=
      answer_repeated (by rw [show (n : ℤ) + 2 = 2 ^ 31 by omega]; decide)
    have hnext : answer 1 60 (List.replicate (n + 1 + 1) repeated) repeated = true :=
      answer_repeated (by rw [show ((n + 1 : ℕ) : ℤ) + 2 = 2 ^ 31 + 1 by omega]; decide)
    have hone := hfirst n
    have hcounted : (true && (samePair repeated repeated &&
        decide (1 ≤ repeated.nowSeconds ∧ repeated.nowSeconds < 1 + 60))) = true := by decide
    rw [List.replicate_succ' (n := n + 1 + 1), outcomes_concat, List.replicate_succ' (n := n + 1),
      outcomes_concat, ← List.replicate_succ', hwrapped, hnext, List.countP_append,
      List.countP_append, List.countP_singleton, hcounted, if_pos rfl]
    omega
  have hbounded := h.bounded repeated 1
  have hthree := hlast (2 ^ 31 - 2) (by decide)
  rw [show 2 ^ 31 - 2 + 1 + 1 + 1 = 2 ^ 31 + 1 by decide] at hthree
  omega

end Runs

end StyioPlatform.RateLimiter
