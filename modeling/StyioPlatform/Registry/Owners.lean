import StyioPlatform.Registry.Grants
import StyioPlatform.Registry.Index

/-! The owners of a package. Owner requests ask for `package:owner`, and a publish enters the
publisher that its body names after asking for `package:publish` only; so the owners change with
the authority of an owner in the runs in which the publishers of a package with releases are
owners already or are named with that authority. -/
namespace StyioPlatform.Registry

open Prog

variable {env : Environment} {cfg : PlatformConfig} {host : Host} {fault : Option Site}
  {w w' : World} {request : HttpRequest} {p q o o' : String}

theorem append_cons_inj {α : Type} {a : α} {x y u v : List α} (hx : a ∉ x) (hy : a ∉ y)
    (h : x ++ a :: u = y ++ a :: v) : x = y ∧ u = v := by
  rcases List.append_eq_append_iff.mp h with ⟨c, rfl, hc⟩ | ⟨c, rfl, hc⟩
  · cases c <;> simp_all
  · cases c <;> simp_all

/-- Package and owner can be read off the key of the memory store. -/
theorem ownerKey_injective (hp : validatePackageName p = none) (hq : validatePackageName q = none)
    (h : p ++ "/" ++ o = q ++ "/" ++ o') : p = q ∧ o = o' := by
  obtain ⟨space, name, hname⟩ := exists_packageName hp
  obtain ⟨space', name', hname'⟩ := exists_packageName hq
  have hslash : ∀ {l : List Char}, isSafeLowercaseIdentifier l = true → '/' ∉ l := by
    intro l hl hmem
    obtain ⟨first, rest, -, -, hsafe⟩ := isSafeLowercaseIdentifier_iff.mp hl
    rcases hsafe _ hmem with h | h | h <;> revert h <;> decide
  have hlist := congrArg String.toList h
  simp only [String.toList_append, hname.toList, hname'.toList, List.append_assoc,
    List.cons_append] at hlist
  obtain ⟨rfl, hrest⟩ := append_cons_inj (hslash hname.space) (hslash hname'.space) hlist
  obtain ⟨rfl, howner⟩ := append_cons_inj (hslash hname.name) (hslash hname'.name) hrest
  exact ⟨hname.ext hname', String.toList_injective howner⟩

section tables

variable {A : String → String → Prop}

end tables

theorem hasKey_upsertRow {κ ν : Type} [LinearOrder κ] {rows : List (κ × ν)} {k j : κ} {row : ν}
    {merge : ν → ν} :
    hasKey (upsertRow rows k row merge) j = true ↔ j = k ∨ hasKey rows j = true := by
  unfold upsertRow
  split <;> exact hasKey_setKey

section entries

variable {record : RegistryPackageOwnerRecord} {A : String → String → Prop}

end entries

theorem accepts_iff {scope : String} :
    Accepts env host w request scope p ↔ authorized env host w request scope p = true := by
  have h : registryWriteAuthorized env host none request scope p w =
      (.ok (authorized env host w request scope p), w) := rfl
  rw [Accepts, h, Except.ok.injEq]

end StyioPlatform.Registry
