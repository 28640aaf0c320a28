import StyioPlatform.Registry.Owners

/-! What the publish of a further version leaves of the records that were there. The package
record is written anew in both stores: Postgres keeps its `created_at` on the conflict, memory
keeps neither `created_at` nor `created_by`. -/
namespace StyioPlatform.Registry

open Prog

def packageRow (draft : PublishDraft) (publishedAt : String) : RegistryPackageRecord where
  packageId := draft.package
  packageNamespace := String.ofList (draft.package.toList.takeWhile (· ≠ '/'))
  name := String.ofList ((draft.package.toList.dropWhile (· ≠ '/')).drop 1)
  createdAt := publishedAt
  createdBy := draft.publisherId

def ownerRow (draft : PublishDraft) (actor publishedAt : String) : RegistryPackageOwnerRecord where
  packageId := draft.package
  ownerId := draft.publisherId
  addedBy := actor
  addedAt := publishedAt

variable {env : Environment} {cfg : PlatformConfig} {host : Host} {fault : Option Site}
  {w w' : World} {draft : PublishDraft} {actor : String}

section tables

variable {κ ν : Type} [LinearOrder κ] {rows : List (κ × ν)} {key : κ} {row : ν}

end tables

/-- The rows that a publish writes at its end. -/
structure Written (draft : PublishDraft) (actor publishedAt : String) (payload : PublishPayload)
    (release : RegistryPackageReleaseRecord) (w w' : World) : Prop where
  packageId : release.packageId = draft.package
  version : release.version = draft.version
  memory : w'.memory = (((w.memory.recordPublishedRelease
      (registryReleaseKey draft.package draft.version) payload).upsertRegistryPackage
    (packageRow draft publishedAt)).upsertRegistryPackageRelease
      release).addRegistryPackageOwner (ownerRow draft actor publishedAt)
  postgres : w'.postgres = w.postgres.map fun s =>
    ((s.upsertRegistryPackage (packageRow draft publishedAt)).upsertRegistryPackageRelease
      release).addRegistryPackageOwner (ownerRow draft actor publishedAt)

section written

variable {payload : PublishPayload} {release : RegistryPackageReleaseRecord} {publishedAt : String}
  {w₁ : World}

end written

end StyioPlatform.Registry
