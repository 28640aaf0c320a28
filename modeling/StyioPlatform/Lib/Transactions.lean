import Mathlib.Data.Fintype.Basic
import Mathlib.Logic.Function.Basic

/-! Clients of a database as scripts of commands, and a server that runs the statements of many
sessions under READ COMMITTED: a statement sees the committed rows and the writes of its own
transaction, waits for the rows it needs while another transaction has written them, and row locks
last to the end of the transaction. Sequences are not part of a transaction. -/
namespace StyioPlatform

inductive Command (S : Type) where
  | begin
  | commit
  | rollback
  | statement (s : S)

/-- A client: it sends commands, continues with the answers and ends with a value or an error. -/
inductive Script (S R E α : Type) where
  | done (result : Except E α)
  | send (command : Command S) (next : Except E R → Script S R E α)

namespace Script

variable {S R E α β : Type}

def bind : Script S R E α → (α → Script S R E β) → Script S R E β
  | done (.ok a), f => f a
  | done (.error e), _ => done (.error e)
  | send c next, f => send c fun answer => (next answer).bind f

instance : Monad (Script S R E) where
  pure a := done (.ok a)
  bind := bind

def throw (e : E) : Script S R E α := done (.error e)

/-- Continue with the handler after an error. -/
def tryCatch : Script S R E α → (E → Script S R E α) → Script S R E α
  | done (.ok a), _ => done (.ok a)
  | done (.error e), handler => handler e
  | send c next, handler => send c fun answer => (next answer).tryCatch handler

/-- Send a statement; an error ends the script. -/
def query (s : S) : Script S R E R := send (.statement s) done

/-- Send a command whose answer is only looked at for an error. -/
def exec (c : Command S) : Script S R E Unit := send c fun answer => done (answer.map fun _ => ())

variable {c : Command S} {next : Except E R → Script S R E α} {f : α → Script S R E β}
  {handler : E → Script S R E α} {a : α} {e : E}

@[simp] theorem pure_eq : (pure a : Script S R E α) = done (.ok a) := rfl

@[simp] theorem done_ok_bind : (done (.ok a) : Script S R E α) >>= f = f a := rfl

@[simp] theorem done_error_bind : (done (.error e) : Script S R E α) >>= f = done (.error e) := rfl

@[simp] theorem send_bind : (send c next) >>= f = send c fun answer => next answer >>= f := rfl

@[simp] theorem tryCatch_done_ok : (done (.ok a) : Script S R E α).tryCatch handler = done (.ok a) :=
  rfl

@[simp] theorem tryCatch_done_error :
    (done (.error e) : Script S R E α).tryCatch handler = handler e := rfl

@[simp] theorem tryCatch_send :
    (send c next).tryCatch handler = send c fun answer => (next answer).tryCatch handler := rfl

end Script

/-- The meaning of the statements of a database. -/
structure Dialect (M T Q W K S R E : Type) where
  apply : T → W → T
  /-- The row that a write locks. -/
  key : W → Option K
  /-- The rows that a statement waits for. -/
  needs : T → S → List K
  /-- The answer and the writes of a statement, given the start of the transaction, the current
  moment and the rows that other transactions have locked. -/
  answer : (start now : M) → (locked : K → Bool) → Q → T → S → Except E (R × List W) × Q
  acknowledged : R
  aborted : E
  unlocked : ∀ {start now locked q t s r ws q'}, (∀ k ∈ needs t s, locked k = false) →
    answer start now locked q t s = (.ok (r, ws), q') →
    ∀ w ∈ ws, ∀ k ∈ key w, locked k = false

/-- The transaction of a session. An error aborts it and releases its locks at once. -/
inductive Transaction (M W : Type) where
  | idle
  | opened (start : M) (writes : List W)
  | aborted

inductive Phase where
  | idle | opened | aborted
  deriving DecidableEq

namespace Transaction

variable {M W : Type}

def writes : Transaction M W → List W
  | opened _ ws => ws
  | _ => []

def phase : Transaction M W → Phase
  | idle => .idle
  | opened _ _ => .opened
  | aborted => .aborted

/-- The transaction after a command that ended with an error. -/
def failed {S : Type} : Command S → Transaction M W → Transaction M W
  | .statement _, opened _ _ => aborted
  | .statement _, txn => txn
  | .begin, txn => txn
  | _, _ => idle

end Transaction

/-- The tables as they are committed, and the sequences. -/
structure Store (T Q : Type) where
  tables : T
  sequences : Q

namespace Dialect

variable {M T Q W K S R E α : Type} (D : Dialect M T Q W K S R E)

def applyAll (t : T) (ws : List W) : T := ws.foldl D.apply t

/-- What a statement of the transaction sees. -/
def visible (t : T) (txn : Transaction M W) : T := D.applyAll t txn.writes

theorem applyAll_append {t : T} {ws ws' : List W} :
    D.applyAll t (ws ++ ws') = D.applyAll (D.applyAll t ws) ws' := by
  simp [applyAll]

/-- A table of the database, read by key and changed by the writes of its rows only. -/
structure IsTable {κ ρ : Type} (read : T → κ → Option ρ) (write : κ → ρ → W) : Prop where
  written : ∀ t k r, read (D.apply t (write k r)) k = some r
  unwritten : ∀ t w k, (∀ r, w ≠ write k r) → read (D.apply t w) k = read t k

namespace IsTable

variable {D} {κ ρ : Type} {read : T → κ → Option ρ} {write : κ → ρ → W} {t : T} {ws : List W} {k : κ}
  {r : ρ}

/-- Writes that do not concern a row leave it alone. -/
theorem read_applyAll_of_unwritten (h : D.IsTable read write) (hws : ∀ r, write k r ∉ ws) :
    read (D.applyAll t ws) k = read t k := by
  induction ws generalizing t with
  | nil => rfl
  | cons w ws ih =>
    have hrest : ∀ r, write k r ∉ ws := fun r hmem => hws r (List.mem_cons_of_mem w hmem)
    have hw : ∀ r, w ≠ write k r := fun r hr => hws r (hr ▸ List.mem_cons_self)
    exact (ih hrest).trans (h.unwritten t w k hw)

/-- Where all writes of a row agree, the row is there afterwards. -/
theorem read_applyAll_of_written (h : D.IsTable read write) (hmem : write k r ∈ ws)
    (honly : ∀ r', write k r' ∈ ws → r' = r) : read (D.applyAll t ws) k = some r := by
  induction ws generalizing t with
  | nil => simp at hmem
  | cons w ws ih =>
    have honly' : ∀ r', write k r' ∈ ws → r' = r :=
      fun r' hr' => honly r' (List.mem_cons_of_mem w hr')
    by_cases hws : write k r ∈ ws
    · exact ih hws honly'
    · have hw : w = write k r := by
        rcases List.mem_cons.mp hmem with h | h
        · exact h.symm
        · exact absurd h hws
      have hunwritten : ∀ r', write k r' ∉ ws := by
        intro r' hr'
        obtain rfl := honly' r' hr'
        exact hws hr'
      subst hw
      exact (h.read_applyAll_of_unwritten hunwritten).trans (h.written t k r)

end IsTable

/-- Some row that the command needs is locked. -/
def waits (locked : K → Bool) (t : T) (txn : Transaction M W) : Command S → Bool
  | .statement s => txn.phase ≠ .aborted && (D.needs (D.visible t txn) s).any locked
  | _ => false

/-- Execute a command that does not have to wait. -/
def execute (now : M) (locked : K → Bool) (store : Store T Q) (txn : Transaction M W) :
    Command S → Except E R × Store T Q × Transaction M W
  | .begin => (.ok D.acknowledged, store,
      match txn with
      | .idle => .opened now []
      | txn => txn)
  | .commit => (.ok D.acknowledged, { store with tables := D.visible store.tables txn }, .idle)
  | .rollback => (.ok D.acknowledged, store, .idle)
  | .statement s =>
    match txn with
    | .aborted => (.error D.aborted, store, .aborted)
    | .idle =>
      match D.answer now now locked store.sequences store.tables s with
      | (.ok (r, ws), q) => (.ok r, ⟨D.applyAll store.tables ws, q⟩, .idle)
      | (.error e, q) => (.error e, ⟨store.tables, q⟩, .idle)
    | .opened start ws =>
      match D.answer start now locked store.sequences (D.applyAll store.tables ws) s with
      | (.ok (r, ws'), q) => (.ok r, ⟨store.tables, q⟩, .opened start (ws ++ ws'))
      | (.error e, q) => (.error e, ⟨store.tables, q⟩, .aborted)

/-- Run a script while no other session is connected. -/
def run (now : M) : Script S R E α → Store T Q → Transaction M W →
    Except E α × Store T Q × Transaction M W
  | .done result, store, txn => (result, store, txn)
  | .send c next, store, txn =>
    let (answer, store, txn) := D.execute now (fun _ => false) store txn c
    run now (next answer) store txn

/-- One call on a connection of its own. -/
def call (now : M) (script : Script S R E α) (store : Store T Q) : Except E α × Store T Q :=
  let (result, store, _) := D.run now script store .idle
  (result, store)

end Dialect

section run

variable {M T Q W K S R E α β : Type} {D : Dialect M T Q W K S R E} {now start : M} {store : Store T Q}
  {txn : Transaction M W} {ws : List W}

@[simp] theorem run_done {result : Except E α} :
    D.run now (.done result) store txn = (result, store, txn) := rfl

@[simp] theorem run_throw {e : E} :
    D.run now (Script.throw e : Script S R E α) store txn = (.error e, store, txn) := rfl

theorem run_bind {x : Script S R E α} {f : α → Script S R E β} :
    D.run now (x >>= f) store txn = match D.run now x store txn with
      | (.ok a, store, txn) => D.run now (f a) store txn
      | (.error e, store, txn) => (.error e, store, txn) := by
  induction x generalizing store txn with
  | done result => cases result <;> rfl
  | send c next ih => exact ih _

theorem run_tryCatch {x : Script S R E α} {handler : E → Script S R E α} :
    D.run now (x.tryCatch handler) store txn = match D.run now x store txn with
      | (.ok a, store, txn) => (.ok a, store, txn)
      | (.error e, store, txn) => D.run now (handler e) store txn := by
  induction x generalizing store txn with
  | done result => cases result <;> rfl
  | send c next ih => exact ih _

@[simp] theorem run_begin :
    D.run now (Script.exec .begin : Script S R E Unit) store .idle =
      (.ok (), store, .opened now []) := rfl

@[simp] theorem run_commit :
    D.run now (Script.exec .commit : Script S R E Unit) store (.opened start ws) =
      (.ok (), { store with tables := D.applyAll store.tables ws }, .idle) := rfl

@[simp] theorem run_rollback :
    D.run now (Script.exec .rollback : Script S R E Unit) store txn = (.ok (), store, .idle) := rfl

theorem run_query_idle {s : S} :
    D.run now (Script.query s : Script S R E R) store .idle =
      match D.answer now now (fun _ => false) store.sequences store.tables s with
      | (.ok (r, ws), q) => (.ok r, ⟨D.applyAll store.tables ws, q⟩, .idle)
      | (.error e, q) => (.error e, ⟨store.tables, q⟩, .idle) := by
  simp only [Script.query, Dialect.run, Dialect.execute]

theorem run_query_opened {s : S} :
    D.run now (Script.query s : Script S R E R) store (.opened start ws) =
      match D.answer start now (fun _ => false) store.sequences (D.applyAll store.tables ws) s with
      | (.ok (r, ws'), q) => (.ok r, ⟨store.tables, q⟩, .opened start (ws ++ ws'))
      | (.error e, q) => (.error e, ⟨store.tables, q⟩, .aborted) := by
  simp only [Script.query, Dialect.run, Dialect.execute]

end run

/-- The answered statements of a session: those of the open transaction, and those whose
transaction has been committed. -/
structure Ledger (S R : Type) where
  phase : Phase := .idle
  current : List (S × R) := []
  kept : List (S × R) := []

/-- The ledger after a command and its answer. -/
def Ledger.record {S R E : Type} (l : Ledger S R) : Command S → Except E R → Ledger S R
  | .begin, .ok _ =>
    match l.phase with
    | .idle => { l with phase := .opened, current := [] }
    | _ => l
  | .begin, .error _ => l
  | .commit, .ok _ => { phase := .idle, current := [], kept := l.kept ++ l.current }
  | .commit, .error _ => { l with phase := .idle, current := [] }
  | .rollback, _ => { l with phase := .idle, current := [] }
  | .statement s, .ok r =>
    match l.phase with
    | .idle => { l with kept := l.kept ++ [(s, r)] }
    | .opened => { l with current := l.current ++ [(s, r)] }
    | .aborted => l
  | .statement _, .error _ =>
    match l.phase with
    | .opened => { l with phase := .aborted, current := [] }
    | _ => l

/-- Whatever possible answers come, each command that the script sends meets `P`, and its end
meets `Q` with a value and `X` with an error. -/
def Script.Obeys {S R E α : Type} (possible : Command S → R → Prop)
    (P : Ledger S R → Command S → Prop) (Q : Ledger S R → α → Prop) (X : Ledger S R → E → Prop) :
    Script S R E α → Ledger S R → Prop
  | .done (.ok a), l => Q l a
  | .done (.error e), l => X l e
  | .send c next, l => P l c ∧ ∀ answer : Except E R, (∀ r, answer = .ok r → possible c r) →
      (next answer).Obeys possible P Q X (l.record c answer)

namespace Script

variable {S R E α β : Type} {possible : Command S → R → Prop} {P : Ledger S R → Command S → Prop}
  {Q Q' : Ledger S R → α → Prop} {X X' : Ledger S R → E → Prop} {l : Ledger S R}
  {x : Script S R E α}

@[simp] theorem obeys_done_ok {a : α} :
    (done (.ok a) : Script S R E α).Obeys possible P Q X l ↔ Q l a := Iff.rfl

@[simp] theorem obeys_done_error {e : E} :
    (done (.error e) : Script S R E α).Obeys possible P Q X l ↔ X l e := Iff.rfl

@[simp] theorem obeys_throw {e : E} :
    (throw e : Script S R E α).Obeys possible P Q X l ↔ X l e := Iff.rfl

@[simp] theorem obeys_query {s : S} {Q : Ledger S R → R → Prop} :
    (query s : Script S R E R).Obeys possible P Q X l ↔ P l (.statement s) ∧
      (∀ r, possible (.statement s) r → Q (l.record (.statement s) (.ok r : Except E R)) r) ∧
      ∀ e, X (l.record (.statement s) (.error e : Except E R)) e := by
  simp only [query, Obeys]
  refine and_congr_right fun _ => ⟨fun h => ⟨fun r hr => ?_, fun e => ?_⟩, ?_⟩
  · exact h (.ok r) (by rintro _ ⟨⟩; exact hr)
  · exact h (.error e) (by rintro _ ⟨⟩)
  · rintro ⟨hok, herror⟩ (e | r) hpossible
    · exact herror e
    · exact hok r (hpossible r rfl)

@[simp] theorem obeys_exec {c : Command S} {Q : Ledger S R → Unit → Prop} :
    (exec c : Script S R E Unit).Obeys possible P Q X l ↔ P l c ∧
      (∀ r, possible c r → Q (l.record c (.ok r : Except E R)) ()) ∧
      ∀ e, X (l.record c (.error e : Except E R)) e := by
  simp only [exec, Obeys]
  refine and_congr_right fun _ => ⟨fun h => ⟨fun r hr => ?_, fun e => ?_⟩, ?_⟩
  · exact h (.ok r) (by rintro _ ⟨⟩; exact hr)
  · exact h (.error e) (by rintro _ ⟨⟩)
  · rintro ⟨hok, herror⟩ (e | r) hpossible
    · exact herror e
    · exact hok r (hpossible r rfl)

@[simp] theorem obeys_bind {f : α → Script S R E β} {Q : Ledger S R → β → Prop} :
    (x >>= f).Obeys possible P Q X l ↔
      x.Obeys possible P (fun l a => (f a).Obeys possible P Q X l) X l := by
  induction x generalizing l with
  | done result => cases result <;> rfl
  | send c next ih => simp only [send_bind, Obeys, ih]

@[simp] theorem obeys_tryCatch {handler : E → Script S R E α} :
    (x.tryCatch handler).Obeys possible P Q X l ↔
      x.Obeys possible P Q (fun l e => (handler e).Obeys possible P Q X l) l := by
  induction x generalizing l with
  | done result => cases result <;> rfl
  | send c next ih => simp only [tryCatch_send, Obeys, ih]

@[simp] theorem obeys_ite {c : Prop} [Decidable c] {y : Script S R E α} :
    (if c then x else y).Obeys possible P Q X l ↔
      (c → x.Obeys possible P Q X l) ∧ (¬ c → y.Obeys possible P Q X l) := by
  by_cases h : c <;> simp [h]

theorem Obeys.mono (h : x.Obeys possible P Q X l) (hQ : ∀ l a, Q l a → Q' l a)
    (hX : ∀ l e, X l e → X' l e) : x.Obeys possible P Q' X' l := by
  induction x generalizing l with
  | done result =>
    cases result with
    | error e => exact hX l e h
    | ok a => exact hQ l a h
  | send c next ih =>
    exact ⟨h.1, fun answer hpossible => ih answer (h.2 answer hpossible)⟩

end Script

structure Session (M W S R E α : Type) where
  script : Script S R E α
  transaction : Transaction M W := .idle
  ledger : Ledger S R := {}

/-- The session after the answer to its command. -/
def Session.proceed {M W S R E α : Type} (session : Session M W S R E α) (c : Command S)
    (next : Except E R → Script S R E α) (answer : Except E R) (txn : Transaction M W) :
    Session M W S R E α :=
  ⟨next answer, txn, session.ledger.record c answer⟩

structure Server (M T Q W S R E α ι : Type) where
  store : Store T Q
  sessions : ι → Session M W S R E α

/-- One session gets to execute its next command; a fault lets the command fail. -/
structure Turn (M E ι : Type) where
  session : ι
  now : M
  fault : Option E := none

namespace Server

variable {M T Q W K S R E α ι : Type} [DecidableEq ι]

/-- The server with a new store and a new state of session `i`. -/
def after (s : Server M T Q W S R E α ι) (i : ι) (store : Store T Q)
    (session : Session M W S R E α) : Server M T Q W S R E α ι :=
  ⟨store, Function.update s.sessions i session⟩

section after

variable {s : Server M T Q W S R E α ι} {i j : ι} {store : Store T Q} {session : Session M W S R E α}

@[simp] theorem after_store : (s.after i store session).store = store := rfl

@[simp] theorem after_sessions_self : (s.after i store session).sessions i = session := by
  simp [after]

theorem after_sessions_of_ne (h : j ≠ i) :
    (s.after i store session).sessions j = s.sessions j := by simp [after, h]

end after

variable [Fintype ι] [DecidableEq K]

/-- The rows that other sessions have locked. -/
def locked (D : Dialect M T Q W K S R E) (s : Server M T Q W S R E α ι) (i : ι) (k : K) : Bool :=
  decide (∃ j, j ≠ i ∧ k ∈ (s.sessions j).transaction.writes.filterMap D.key)

/-- The server after one turn. A session whose script has ended, or whose command has to wait for a
locked row, takes its turn in vain. -/
def step (D : Dialect M T Q W K S R E) (s : Server M T Q W S R E α ι) (turn : Turn M E ι) :
    Server M T Q W S R E α ι :=
  let i := turn.session
  let session := s.sessions i
  match session.script with
  | .done _ => s
  | .send c next =>
    match turn.fault with
    | some e =>
      s.after i s.store (session.proceed c next (.error e) (session.transaction.failed c))
    | none =>
      if D.waits (s.locked D i) s.store.tables session.transaction c then s
      else
        let (answer, store, txn) := D.execute turn.now (s.locked D i) s.store session.transaction c
        s.after i store (session.proceed c next answer txn)

def run (D : Dialect M T Q W K S R E) (s : Server M T Q W S R E α ι)
    (turns : List (Turn M E ι)) : Server M T Q W S R E α ι :=
  turns.foldl (step D) s

/-- What one turn of session `i` can do. -/
inductive Step (D : Dialect M T Q W K S R E) (s : Server M T Q W S R E α ι) (i : ι) :
    Server M T Q W S R E α ι → Prop
  | wait : Step D s i s
  | fail {c next e q} (hscript : (s.sessions i).script = .send c next)
      (hsequences : q = s.store.sequences ∨ ∃ start now t st,
        D.answer start now (s.locked D i) s.store.sequences t st = (.error e, q)) :
      Step D s i (s.after i ⟨s.store.tables, q⟩ ((s.sessions i).proceed c next (.error e)
        ((s.sessions i).transaction.failed c)))
  | begin {next start} (hscript : (s.sessions i).script = .send .begin next)
      (hidle : (s.sessions i).transaction = .idle) :
      Step D s i (s.after i s.store ((s.sessions i).proceed .begin next (.ok D.acknowledged)
        (.opened start [])))
  | beginAgain {next} (hscript : (s.sessions i).script = .send .begin next)
      (hopen : (s.sessions i).transaction ≠ .idle) :
      Step D s i (s.after i s.store ((s.sessions i).proceed .begin next (.ok D.acknowledged)
        (s.sessions i).transaction))
  | commit {next} (hscript : (s.sessions i).script = .send .commit next) :
      Step D s i (s.after i
        { s.store with tables := D.visible s.store.tables (s.sessions i).transaction }
        ((s.sessions i).proceed .commit next (.ok D.acknowledged) .idle))
  | rollback {next} (hscript : (s.sessions i).script = .send .rollback next) :
      Step D s i (s.after i s.store
        ((s.sessions i).proceed .rollback next (.ok D.acknowledged) .idle))
  | outside {st next now r ws q} (hscript : (s.sessions i).script = .send (.statement st) next)
      (hidle : (s.sessions i).transaction = .idle)
      (hfree : ∀ k ∈ D.needs s.store.tables st, s.locked D i k = false)
      (hanswer : D.answer now now (s.locked D i) s.store.sequences s.store.tables st =
        (.ok (r, ws), q)) :
      Step D s i (s.after i ⟨D.applyAll s.store.tables ws, q⟩
        ((s.sessions i).proceed (.statement st) next (.ok r) .idle))
  | inside {st next start now ws ws' r q}
      (hscript : (s.sessions i).script = .send (.statement st) next)
      (hopen : (s.sessions i).transaction = .opened start ws)
      (hfree : ∀ k ∈ D.needs (D.applyAll s.store.tables ws) st, s.locked D i k = false)
      (hanswer : D.answer start now (s.locked D i) s.store.sequences
        (D.applyAll s.store.tables ws) st = (.ok (r, ws'), q)) :
      Step D s i (s.after i ⟨s.store.tables, q⟩
        ((s.sessions i).proceed (.statement st) next (.ok r) (.opened start (ws ++ ws'))))

theorem step_spec (D : Dialect M T Q W K S R E) (s : Server M T Q W S R E α ι)
    (turn : Turn M E ι) : Step D s turn.session (s.step D turn) := by
  obtain ⟨i, now, fault⟩ := turn
  unfold step
  dsimp only
  split
  · exact .wait
  · rename_i c next hscript
    split
    · exact .fail hscript (.inl rfl)
    · split
      · exact .wait
      · rename_i hwaits
        cases c with
        | begin =>
          cases htxn : (s.sessions i).transaction with
          | idle =>
            have hstep : Step D s i (s.after i s.store ((s.sessions i).proceed .begin next
                (.ok D.acknowledged) (.opened now []))) := .begin hscript htxn
            simpa [Dialect.execute, htxn] using hstep
          | opened start ws =>
            have hstep := Step.beginAgain (D := D) hscript (by simp [htxn])
            simpa [Dialect.execute, htxn] using hstep
          | aborted =>
            have hstep := Step.beginAgain (D := D) hscript (by simp [htxn])
            simpa [Dialect.execute, htxn] using hstep
        | commit => exact .commit hscript
        | rollback => exact .rollback hscript
        | statement st =>
          cases htxn : (s.sessions i).transaction with
          | aborted =>
            have hstep := Step.fail (D := D) (e := D.aborted) hscript (.inl rfl)
            simpa [Dialect.execute, htxn, Transaction.failed] using hstep
          | idle =>
            simp only [Dialect.waits, htxn, Transaction.phase, Dialect.visible, Transaction.writes,
              Dialect.applyAll, List.foldl_nil] at hwaits
            have hfree : ∀ k ∈ D.needs s.store.tables st, s.locked D i k = false := by
              simpa using hwaits
            rcases hanswer : D.answer now now (s.locked D i) s.store.sequences s.store.tables st with
              ⟨e | ⟨r, ws⟩, q⟩
            · have hstep := Step.fail hscript (.inr ⟨_, _, _, _, hanswer⟩)
              simpa [Dialect.execute, hanswer, htxn, Transaction.failed] using hstep
            · have hstep := Step.outside hscript htxn hfree hanswer
              simpa [Dialect.execute, hanswer] using hstep
          | opened start ws =>
            simp only [Dialect.waits, htxn, Transaction.phase, Dialect.visible,
              Transaction.writes] at hwaits
            have hfree : ∀ k ∈ D.needs (D.applyAll s.store.tables ws) st,
                s.locked D i k = false := by simpa using hwaits
            rcases hanswer : D.answer start now (s.locked D i) s.store.sequences
              (D.applyAll s.store.tables ws) st with ⟨e | ⟨r, ws'⟩, q⟩
            · have hstep := Step.fail hscript (.inr ⟨_, _, _, _, hanswer⟩)
              simpa [Dialect.execute, hanswer, htxn, Transaction.failed] using hstep
            · have hstep := Step.inside hscript htxn hfree hanswer
              simpa [Dialect.execute, hanswer] using hstep

section invariants

variable {D : Dialect M T Q W K S R E} {s s' : Server M T Q W S R E α ι} {i j : ι}

/-- What every turn keeps holds after every run. -/
theorem run_invariant {P : Server M T Q W S R E α ι → Prop}
    (hstep : ∀ s i s', P s → Step D s i s' → P s') (turns : List (Turn M E ι)) (h : P s) :
    P (s.run D turns) := by
  induction turns generalizing s with
  | nil => exact h
  | cons turn turns ih =>
    apply ih
    exact hstep s turn.session _ h (step_spec D s turn)

theorem Step.sessions_of_ne (h : Step D s i s') (hj : j ≠ i) : s'.sessions j = s.sessions j := by
  cases h <;> first | rfl | exact after_sessions_of_ne hj

/-- Ledgers and transactions are in the same phase, and only an open transaction has entries. -/
def InPhase (s : Server M T Q W S R E α ι) : Prop :=
  ∀ i, (s.sessions i).ledger.phase = (s.sessions i).transaction.phase ∧
    ((s.sessions i).ledger.phase ≠ .opened → (s.sessions i).ledger.current = [])

theorem InPhase.step (h : Step D s i s') (hs : InPhase s) : InPhase s' := by
  intro j
  by_cases hj : j = i
  · subst hj
    obtain ⟨hphase, hcurrent⟩ := hs j
    cases h with
    | wait => exact hs j
    | @fail c next e q hscript hsequences =>
      cases c <;> cases htxn : (s.sessions j).transaction <;>
        simp_all [Session.proceed, Ledger.record, Transaction.failed, Transaction.phase]
    | beginAgain hscript hopen =>
      cases htxn : (s.sessions j).transaction <;>
        simp_all [Session.proceed, Ledger.record, Transaction.phase]
    | _ => simp_all [Session.proceed, Ledger.record, Transaction.phase]
  · rw [h.sessions_of_ne hj]
    exact hs j

/-- No row is locked by two sessions. -/
def Exclusive (D : Dialect M T Q W K S R E) (s : Server M T Q W S R E α ι) : Prop :=
  ∀ i j, i ≠ j → ∀ k ∈ (s.sessions i).transaction.writes.filterMap D.key,
    k ∉ (s.sessions j).transaction.writes.filterMap D.key

theorem locked_eq_false {k : K} : s.locked D i k = false ↔
    ∀ j, j ≠ i → k ∉ (s.sessions j).transaction.writes.filterMap D.key := by
  simp only [locked, decide_eq_false_iff_not, not_exists, not_and]

/-- The locks of the session that takes the turn after it: those it had, or free rows. -/
theorem Step.keys_self (h : Step D s i s') :
    ∀ k ∈ (s'.sessions i).transaction.writes.filterMap D.key,
      k ∈ (s.sessions i).transaction.writes.filterMap D.key ∨ s.locked D i k = false := by
  intro k hk
  cases h with
  | wait => exact .inl hk
  | @fail c next e q hscript hsequences =>
    left
    cases c <;> cases htxn : (s.sessions i).transaction <;>
      simp_all [Session.proceed, Transaction.failed, Transaction.writes]
  | beginAgain hscript hopen => exact .inl (by simpa [Session.proceed] using hk)
  | @inside st next start now ws ws' r q hscript hopen hfree hanswer =>
    simp only [after_sessions_self, Session.proceed, Transaction.writes, List.filterMap_append,
      List.mem_append] at hk
    rcases hk with hk | hk
    · exact .inl (by simpa [hopen, Transaction.writes] using hk)
    · right
      rw [List.mem_filterMap] at hk
      obtain ⟨w, hw, hkey⟩ := hk
      exact D.unlocked hfree hanswer w hw k hkey
  | _ => simp [Session.proceed, Transaction.writes] at hk

theorem Exclusive.step (h : Step D s i s') (hs : Exclusive D s) : Exclusive D s' := by
  intro a b hab k hk hk'
  by_cases ha : a = i
  · subst ha
    rw [h.sessions_of_ne (Ne.symm hab)] at hk'
    rcases h.keys_self k hk with hk | hfree
    · exact hs a b hab k hk hk'
    · exact locked_eq_false.mp hfree b (Ne.symm hab) hk'
  · rw [h.sessions_of_ne ha] at hk
    by_cases hb : b = i
    · subst hb
      rcases h.keys_self k hk' with hk' | hfree
      · exact hs a b hab k hk hk'
      · exact locked_eq_false.mp hfree a hab hk
    · rw [h.sessions_of_ne hb] at hk'
      exact hs a b hab k hk hk'

/-- Every turn of the run meets the condition. -/
def Along (D : Dialect M T Q W K S R E) (C : Server M T Q W S R E α ι → ι → Prop) :
    Server M T Q W S R E α ι → List (Turn M E ι) → Prop
  | _, [] => True
  | s, turn :: turns => C s turn.session ∧ Along D C (s.step D turn) turns

instance Along.decidable {C : Server M T Q W S R E α ι → ι → Prop} [∀ s i, Decidable (C s i)] :
    ∀ (s : Server M T Q W S R E α ι) (turns : List (Turn M E ι)), Decidable (Along D C s turns)
  | _, [] => .isTrue trivial
  | s, turn :: turns =>
    have := Along.decidable (C := C) (s.step D turn) turns
    inferInstanceAs (Decidable (C s turn.session ∧ Along D C (s.step D turn) turns))

/-- What every turn that meets the condition keeps holds after every run along the condition. -/
theorem run_invariant_along {C : Server M T Q W S R E α ι → ι → Prop}
    {P : Server M T Q W S R E α ι → Prop}
    (hstep : ∀ s i s', P s → C s i → Step D s i s' → P s') {turns : List (Turn M E ι)}
    (hturns : Along D C s turns) (h : P s) : P (s.run D turns) := by
  induction turns generalizing s with
  | nil => exact h
  | cons turn turns ih =>
    apply ih hturns.2
    exact hstep s turn.session _ h hturns.1 (step_spec D s turn)

/-- Every session follows its rules from here on. -/
def Obeying (possible : Command S → R → Prop) (P : ι → Ledger S R → Command S → Prop)
    (Q' : ι → Ledger S R → α → Prop) (X : ι → Ledger S R → E → Prop)
    (s : Server M T Q W S R E α ι) : Prop :=
  ∀ i, (s.sessions i).script.Obeys possible (P i) (Q' i) (X i) (s.sessions i).ledger

variable {possible : Command S → R → Prop} {P : ι → Ledger S R → Command S → Prop}
  {Q' : ι → Ledger S R → α → Prop} {X : ι → Ledger S R → E → Prop}

theorem Obeying.step (h : Step D s i s') (hs : Obeying possible P Q' X s)
    (hacknowledged : ∀ c, (∀ st, c ≠ .statement st) → possible c D.acknowledged)
    (hpossible : ∀ start now locked q st r ws q',
      D.answer start now locked q (D.visible s.store.tables (s.sessions i).transaction) st =
        (.ok (r, ws), q') → possible (.statement st) r) :
    Obeying possible P Q' X s' := by
  intro j
  by_cases hj : j = i
  · subst hj
    have hobeys := hs j
    cases h with
    | wait => exact hobeys
    | fail hscript hsequences =>
      rw [hscript] at hobeys
      rw [after_sessions_self]
      exact hobeys.2 _ (by rintro r ⟨⟩)
    | outside hscript hidle hfree hanswer =>
      rw [hscript] at hobeys
      rw [hidle] at hpossible
      rw [after_sessions_self]
      exact hobeys.2 _ (by rintro r ⟨⟩; exact hpossible _ _ _ _ _ _ _ _ hanswer)
    | inside hscript hopen hfree hanswer =>
      rw [hscript] at hobeys
      rw [hopen] at hpossible
      rw [after_sessions_self]
      exact hobeys.2 _ (by rintro r ⟨⟩; exact hpossible _ _ _ _ _ _ _ _ hanswer)
    | begin hscript | beginAgain hscript | commit hscript | rollback hscript =>
      rw [hscript] at hobeys
      rw [after_sessions_self]
      exact hobeys.2 _ (by rintro r ⟨⟩; exact hacknowledged _ (by simp))
  · rw [h.sessions_of_ne hj]
    exact hs j

omit [DecidableEq ι] [Fintype ι] in
/-- The rule for the command that the session sends next. -/
theorem Obeying.command {c : Command S} {next : Except E R → Script S R E α}
    (hs : Obeying possible P Q' X s) (hscript : (s.sessions i).script = .send c next) :
    P i (s.sessions i).ledger c := by
  have hobeys := hs i
  rw [hscript] at hobeys
  exact hobeys.1

end invariants

end Server

end StyioPlatform
