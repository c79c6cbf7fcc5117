import Mathlib.Data.List.Sort
import OciAcmePublisher.Ports

/-!
# Retention

`plan_retention`: which versions of a certificate may safely have their deletion scheduled.
-/

namespace OciAcmePublisher

/-- Versions that may safely have deletion scheduled at the given time. -/
structure RetentionPlan where
  versionNumbers : List Int
  deletionTime : Instant
  deriving DecidableEq, Repr

/-- `_PROTECTED_STAGES`. -/
def protectedStages : List Stage := [.current, .pending, .previous, .latest, .pendingActivation]

/-- The filter of `plan_retention`. -/
def retentionEligible (configuration : RetentionConfig) (referencedVersions : List Int) (now : Instant)
    (version : OciCertificateVersion) : Bool :=
  version.stages.contains .deprecated && !protectedStages.any version.stages.contains &&
    !referencedVersions.contains version.versionNumber && version.timeOfDeletion.isNone &&
      version.timeCreated.any (fun created => created ≤ now - days configuration.minimumAgeDays)

/-- The sort key, newest first. Only eligible versions are compared, and they have a creation time. -/
def newestFirst (a b : OciCertificateVersion) : Bool :=
  let created := fun v : OciCertificateVersion => v.timeCreated.getD 0
  decide (created b < created a) || (created a == created b && decide (b.versionNumber ≤ a.versionNumber))

/-- `plan_retention`: select only old unreferenced DEPRECATED versions beyond rollback retention. -/
def planRetention (configuration : RetentionConfig) (versions : List OciCertificateVersion)
    (referencedVersions : List Int) (now : Instant) : RetentionPlan :=
  let deletionTime := now + days configuration.deletionDelayDays
  if configuration.enabled = false then { versionNumbers := [], deletionTime := deletionTime }
  else
    let eligible := (versions.filter (retentionEligible configuration referencedVersions now)).insertionSort
      (fun a b => newestFirst a b = true)
    let retained := (eligible.take configuration.keepDeprecatedVersions).map (·.versionNumber)
    { versionNumbers := (eligible.map (·.versionNumber)).filter fun n => !retained.contains n
      deletionTime := deletionTime }

end OciAcmePublisher
