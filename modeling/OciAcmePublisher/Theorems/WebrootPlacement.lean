import OciAcmePublisher.Paths.Lexical
import OciAcmePublisher.Theorems.Partition

/-!
# The webroot and the private keys

`cross_field_invariants` compares the two paths as they are spelled. Whether the webroot lies in the certificate store is a matter of
their normalised segments.
-/

namespace OciAcmePublisher

open Paths

/-- The segments of a path, normalised. -/
def directorySegments (path : String) : List (List Char) := normal '/' '.' path.toList

/-- The path leads to the directory or below it. -/
def LiesIn (path directory : String) : Prop := directorySegments directory <+: directorySegments path

/-- The path has its normal spelling, apart from slashes after it. -/
def NormallySpelled (path : String) : Prop := ∃ n, path.toList = spell '/' (directorySegments path) ++ List.replicate n '/'

/-- The test of `cross_field_invariants` for a webroot inside the certificate store. -/
def prefixTest (webrootBase certificatesDir : String) : Bool := startsWith webrootBase (rstripSlashes certificatesDir ++ "/")

namespace WebrootPlacementAux

variable {path webroot certificates : String}

theorem segments_plain (path : String) : ∀ s ∈ directorySegments path, Plain '/' '.' s := normal_plain '/' '.' path.toList

theorem rstripSlashes_toList (value : String) : (rstripSlashes value).toList = value.toList.rdropWhile (· == '/') := by
  rw [rstripSlashes, String.toList_ofList]
  rfl

theorem prefixTest_iff : prefixTest webroot certificates = true ↔
    (rstripSlashes certificates).toList ++ ['/'] <+: webroot.toList := by
  rw [prefixTest, startsWith, List.isPrefixOf_iff_prefix, String.toList_append]
  rfl

/-- The test of two normal spellings, the webroot's with slashes after it. -/
theorem prefixTest_normal {w c : List (List Char)} {n m : Nat} (hw : ∀ s ∈ w, Plain '/' '.' s) (hc : ∀ s ∈ c, Plain '/' '.' s)
    (hwebroot : webroot.toList = spell '/' w ++ List.replicate n '/')
    (hcertificates : certificates.toList = spell '/' c ++ List.replicate m '/') :
    prefixTest webroot certificates = true ↔ c <+: w ∧ (c = w → 0 < n) := by
  rw [prefixTest_iff, rstripSlashes_toList, hcertificates, rdropWhile_spell hc, hwebroot, spell_prefix_iff hc hw]

/-- Two paths with normal spellings, as the validator accepts them: the webroot lies in the store only if it is the store. -/
theorem liesIn_accepted (hwebroot : NormallySpelled webroot) (hcertificates : NormallySpelled certificates)
    (hpassed : prefixTest webroot certificates = false) :
    LiesIn webroot certificates ↔ rstripSlashes webroot = rstripSlashes certificates := by
  obtain ⟨n, hn⟩ := hwebroot
  obtain ⟨m, hm⟩ := hcertificates
  have hstrip : ∀ {path : String} {k : Nat}, path.toList = spell '/' (directorySegments path) ++ List.replicate k '/' →
      (rstripSlashes path).toList = spell '/' (directorySegments path) := by
    intro path k hk
    rw [rstripSlashes_toList, hk, rdropWhile_spell (segments_plain path)]
  have hnot : ¬(directorySegments certificates <+: directorySegments webroot ∧
      (directorySegments certificates = directorySegments webroot → 0 < n)) := by
    rw [← prefixTest_normal (segments_plain webroot) (segments_plain certificates) hn hm, hpassed]
    exact Bool.false_ne_true
  constructor
  · intro hin
    have heq : directorySegments certificates = directorySegments webroot := by
      by_contra hne
      exact hnot ⟨hin, fun h => absurd h hne⟩
    apply String.toList_injective
    rw [hstrip hn, hstrip hm, heq]
  · intro heq
    have hspell : spell '/' (directorySegments webroot) ++ List.replicate 0 '/' =
        spell '/' (directorySegments certificates) ++ List.replicate 0 '/' := by
      rw [← hstrip hn, ← hstrip hm, heq]
    have hsegments := congrArg (normal '/' '.') hspell
    rw [normal_spell (segments_plain webroot), normal_spell (segments_plain certificates)] at hsegments
    rw [LiesIn, hsegments]

theorem segments_rstripSlashes (path : String) : directorySegments (rstripSlashes path) = directorySegments path := by
  rw [directorySegments, rstripSlashes_toList, normal_rdropWhile, directorySegments]

/-- Paths that are equal up to slashes after them. -/
theorem liesIn_of_rstrip (h : rstripSlashes webroot = rstripSlashes certificates) : LiesIn webroot certificates := by
  rw [LiesIn, ← segments_rstripSlashes certificates, ← h, segments_rstripSlashes]

/-- What the validator has checked of the two paths. -/
theorem prefixTest_accepted {Γ : Ctx} {document : Yaml} {config : AppConfig} (h : document.appConfig Γ = some config) :
    prefixTest config.http01.webrootBase config.acme.certificatesDir = false := by
  obtain ⟨-, -, -, hcross⟩ := appConfig_parts h
  have hsettings := ((AppConfig.crossFieldInvariants_ok config).1 hcross).settings
  rw [Bool.eq_false_iff]
  intro htest
  unfold prefixTest at htest
  unfold AppConfig.settingsInvariants at hsettings
  rw [if_pos htest] at hsettings
  split_ifs at hsettings <;> cases hsettings

end WebrootPlacementAux

open WebrootPlacementAux

/-- The webroot of an accepted configuration lies outside the certificate store where the two paths are spelled normally and differ
apart from the slashes after them. Paths that are equal up to these slashes lead to the same directory, however they are spelled. -/
theorem webroot_outside_iff (Γ : Ctx) (document : Yaml) (config : AppConfig) (h : document.appConfig Γ = some config) :
    (NormallySpelled config.http01.webrootBase → NormallySpelled config.acme.certificatesDir →
        (¬LiesIn config.http01.webrootBase config.acme.certificatesDir ↔
          rstripSlashes config.http01.webrootBase ≠ rstripSlashes config.acme.certificatesDir)) ∧
      (rstripSlashes config.http01.webrootBase = rstripSlashes config.acme.certificatesDir →
        LiesIn config.http01.webrootBase config.acme.certificatesDir) :=
  ⟨fun hwebroot hcertificates => not_congr (liesIn_accepted hwebroot hcertificates (prefixTest_accepted h)), liesIn_of_rstrip⟩

namespace Sample

/-- A document with one certificate set. -/
def placed (certificatesDir webrootBase : String) : Yaml :=
  document certificatesDir webrootBase 30 [certificateYaml "web" "a.example" .null]

end Sample

/-- Next to each other. -/
theorem webroot_outside_iff_sample : ∃ config : AppConfig, Yaml.appConfig Sample.ctx (Sample.placed "/srv/keys/" "/srv/www") = some config ∧
    ¬LiesIn config.http01.webrootBase config.acme.certificatesDir := by
  have hpaths : ((Sample.placed "/srv/keys/" "/srv/www").appConfig Sample.ctx).any (fun config =>
      config.http01.webrootBase = "/srv/www" ∧ config.acme.certificatesDir = "/srv/keys/") = true := by
    decide +kernel
  cases hdocument : (Sample.placed "/srv/keys/" "/srv/www").appConfig Sample.ctx with
  | none =>
    rw [hdocument] at hpaths
    cases hpaths
  | some config =>
    rw [hdocument, Option.any_some, decide_eq_true_eq] at hpaths
    refine ⟨config, rfl, ((webroot_outside_iff Sample.ctx _ config hdocument).1 ?_ ?_).2 ?_⟩
    · rw [hpaths.1]
      exact ⟨0, by decide +kernel⟩
    · rw [hpaths.2]
      exact ⟨1, by decide +kernel⟩
    · rw [hpaths.1, hpaths.2]
      decide +kernel

/-- The certificate store itself is accepted as the webroot. -/
theorem webroot_outside_false : ¬∀ (Γ : Ctx) (document : Yaml) (config : AppConfig), document.appConfig Γ = some config →
    ¬LiesIn config.http01.webrootBase config.acme.certificatesDir := by
  intro h
  have hpaths : ((Sample.placed "/srv/keys" "/srv/keys").appConfig Sample.ctx).any (fun config =>
      config.http01.webrootBase = config.acme.certificatesDir) = true := by
    decide +kernel
  cases hdocument : (Sample.placed "/srv/keys" "/srv/keys").appConfig Sample.ctx with
  | none =>
    rw [hdocument] at hpaths
    cases hpaths
  | some config =>
    rw [hdocument, Option.any_some, decide_eq_true_eq] at hpaths
    refine h Sample.ctx _ config hdocument ?_
    rw [LiesIn, hpaths]

end OciAcmePublisher
