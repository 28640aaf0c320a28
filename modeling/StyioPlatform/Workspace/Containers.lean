import StyioPlatform.Workspace.MemorySteps
import StyioPlatform.Workspace.PostgresSteps

/-! Compile containers in both back ends: the binding to a tenant, a user and a worker, and the
generation that counts the changes of the workspace. -/
namespace StyioPlatform.Workspace

/-- What a back end holds of a compile container. -/
structure Binding where
  tenantId : String
  userId : String
  workerId : String
  workspaceId : String
  generation : ℕ
  deriving DecidableEq

/-- The same tenant, user and worker. -/
def Binding.Same (b b' : Binding) : Prop :=
  b'.tenantId = b.tenantId ∧ b'.userId = b.userId ∧ b'.workerId = b.workerId

/-- A request keeps the container and its binding, and the generation grows by one exactly if the
workspace changes. -/
def Binding.Kept (old new : Option Binding) : Prop :=
  ∀ b, old = some b → ∃ b', new = some b' ∧ b.Same b' ∧
    b'.generation = b.generation + if b'.workspaceId = b.workspaceId then 0 else 1

/-- A state back end under the router. -/
structure Backend (σ : Type) where
  handle : Moment → Request → σ → Option Response × σ
  binding : σ → String → Option Binding

namespace Backend

variable {σ : Type} (B : Backend σ)

def run (s : σ) (requests : List (Moment × Request)) : σ :=
  requests.foldl (fun s r => (B.handle r.1 r.2 s).2) s

variable {B}

/-- The condition holds of every request of the run. -/
def Meets (B : Backend σ) (condition : σ → Request → Prop) : σ → List (Moment × Request) → Prop
  | _, [] => True
  | s, r :: rest => condition s r.2 ∧ B.Meets condition (B.handle r.1 r.2 s).2 rest

theorem Meets.split {condition : σ → Request → Prop} {s : σ} {before after : List (Moment × Request)}
    {r : Moment × Request} (h : B.Meets condition s (before ++ r :: after)) :
    condition (B.run s before) r.2 := by
  induction before generalizing s with
  | nil => exact h.1
  | cons r' before ih => exact ih h.2

end Backend

section memory

open MemoryStateStore

variable {configRegion : String} {m m' : MemoryStateStore} {request : Request}

/-- What `MemoryStateStore` holds of a container. -/
def CompileContainerRecord.binding (c : CompileContainerRecord) : Binding :=
  ⟨c.tenantId, c.userId, c.workerId, c.currentWorkspaceId, c.workspaceGeneration⟩

end memory

section postgres

open PostgresStore

variable {settings : Settings} {configRegion : String} {now : Moment} {t t' : Tables}
  {store : Store Tables Sequences} {request : Request} {answer : Option Response}

/-- What `PostgresStore` holds of a container. -/
def ContainerRow.binding (row : ContainerRow) : Binding :=
  ⟨row.tenantId, row.userId, row.workerId, row.currentWorkspaceId, row.workspaceGeneration⟩

end postgres

end StyioPlatform.Workspace
