import OciAcmePublisher.Effects.Keeping
import OciAcmePublisher.Lemmas.CommandLine

/-!
# What the commands keep to

A guarantee that the operations of the services keep to is one that every service keeps to, and every command: so it is
shown of the parts once, and holds of the timer run over all sets and of the live probe as well.
-/

namespace OciAcmePublisher

open Effects

/-- What the services do beside their operations: they read, pause and notify, issue material and schedule deletions. -/
def Op.aside : Op → Bool
  | .newOrder .. | .finalizeOrder .. | .commitLineage .. | .scheduleVersionDeletion .. => true
  | op => op.idle

theorem aside_of_idle (op : Op) (h : op.idle = true) : op.aside = true := by
  cases op <;> first | rfl | exact h

theorem idle_of_lockless (op : Op) (h : op.lockless = true) : op.idle = true := by
  cases op with
  | sql statement => cases statement <;> first | rfl | cases h
  | _ => first | rfl | cases h

variable {W : Type}

/-- The parts of the services keep to the guarantee, given material such as the store loads, with its fingerprint. -/
structure PartsKeep (Γ : Ctx) (env : Env publisher Exc W) (G : W → W → Prop) (loaded : LineageMaterial → Prop) : Prop where
  aside : ∀ op : Op, op.aside = true → ∀ w answer w', env w op answer w' → G w w'
  load : ∀ id w material w', env w (.loadLineage id) (.ok material) w' → loaded material
  publication : ∀ config certificate material chain now operationType, loaded material →
    operationType ≠ .audit ∧ operationType ≠ .rollback → Keeps env G
      (PublicationReconciler.publish Γ config certificate material chain (certificateSha256 material.leaf) now operationType)
  audit : ∀ config passes id, Keeps env G (PublicationService.audit Γ config passes id)
  rollback : ∀ config certificate now configuration passes,
    Keeps env G (RollbackService.rollback Γ config certificate now configuration passes)
  recovery : ∀ config certificate fingerprint, Keeps env G (PublicationService.recoverBootstrap Γ config certificate fingerprint)
  creation : ∀ config certificate material chain, loaded material → Keeps env G
    (PublicationService.createCertificate Γ config certificate material chain (certificateSha256 material.leaf))

/-- The services keep to the guarantee with the configuration. -/
structure ServicesKeep (Γ : Ctx) (passes : Nat) (config : AppConfig) (env : Env publisher Exc W) (G : W → W → Prop) : Prop where
  idle : ∀ op : Op, op.idle = true → ∀ w answer w', env w op answer w' → G w w'
  publish : ∀ id operationType, operationType ≠ .audit ∧ operationType ≠ .rollback →
    Keeps env G (PublicationService.publish Γ config passes id operationType)
  renew : ∀ id force, Keeps env G (PublicationService.renew Γ config passes id force)
  attempt : ∀ certificate ∈ config.certificates, Keeps env G (PublicationService.attemptRenewal Γ config passes certificate)
  bootstrap : ∀ id, Keeps env G (PublicationService.bootstrap Γ config id)
  audit : ∀ id, Keeps env G (PublicationService.audit Γ config passes id)
  rollback : ∀ id, Keeps env G (PublicationService.rollback Γ config passes id)
  retention : ∀ id, Keeps env G (PublicationService.retention config id)

theorem keeps_ofExcept {S : Signature} {α : Type} {env : Env S Exc W} {G : W → W → Prop} {e : Except Exc α} :
    Keeps env G (ofExcept e : Program S Exc α) := by
  cases e with
  | ok a => exact Keeps.ret
  | error x => exact Keeps.raise

namespace Disciplines

variable {Γ : Ctx} {passes : Nat} {config : AppConfig} {certificate : CertificateConfig} {env : Env publisher Exc W}
  {G : W → W → Prop}

theorem uses_notifyExpiry {A : Op → Prop} (hA : ∀ op, op.idle = true → A op) :
    (PublicationService.notifyExpiry Γ config certificate).Uses A := by
  refine Program.uses_bind (Program.uses_perform.2 (hA _ rfl)) fun now =>
    Program.uses_bind (Program.uses_bind ?_ fun remaining => ?_)
    fun event => ?_
  · refine Program.uses_bind (Program.uses_attempt (Program.uses_perform.2 (hA _ rfl))) fun content => ?_
    cases content with
    | ok raw => trivial
    | error x =>
      simp only
      split <;> trivial
  · cases remaining with
    | none => trivial
    | some remaining =>
      simp only
      split
      · trivial
      · split <;> trivial
  · cases event with
    | none => trivial
    | some event => exact PublicationService.uses_notifyEvent hA _ _

/-! ## The services, from their parts -/

section Parts

variable {loaded : LineageMaterial → Prop} (h : PartsKeep Γ env G loaded)

include h

theorem idles {α : Type} {p : Action α} (hp : p.Uses fun op : Op => op.idle = true) : Keeps env G p :=
  Keeps.frame hp fun op hop => h.aside op (aside_of_idle op hop)

theorem asides {α : Type} {p : Action α} (hp : p.Uses fun op : Op => op.aside = true) : Keeps env G p :=
  Keeps.frame hp fun op hop => h.aside op hop

/-- What follows a load and its validation has material such as the store loads, and its fingerprint. -/
theorem loaded_keeps {α : Type} {id : String} {f : LineageMaterial → Instant → String → Action α}
    (hf : ∀ material now, loaded material → Keeps env G (f material now (certificateSha256 material.leaf))) :
    Keeps env G ((perform (.loadLineage id)).bind fun material => (perform .now).bind fun validated =>
      (ofExcept (validateCertificateMaterial Γ material certificate config.compatibility config.global validated)).bind
        (f material validated)) := by
  refine Guarded.bind (R := fun material _ => loaded material) ?_ fun material w hmaterial => ?_
  · exact Guarded.perform (fun w answer w' _ hop => h.aside _ rfl w answer w' hop)
      (fun w material w' _ hop => h.load id w material w' hop) fun _ _ _ _ _ => trivial
  · refine Keeps.bind (idles h (Program.uses_perform.2 rfl)) (fun validated => ?_) w trivial
    cases hvalid : validateCertificateMaterial Γ material certificate config.compatibility config.global validated with
    | error x => exact Keeps.raise
    | ok fingerprint =>
      obtain rfl := (validateCertificateMaterial_ok hvalid).2
      exact hf material validated hmaterial

theorem rollback_keeps (id : String) : Keeps env G (PublicationService.rollback Γ config passes id) := by
  refine Keeps.bind keeps_ofExcept fun certificate => ?_
  refine Keeps.bind (idles h (PublicationService.uses_openPorts fun _ hop => hop)) fun _ => ?_
  refine Keeps.bind (idles h (Program.uses_perform.2 rfl)) fun _ => ?_
  exact Keeps.bind (idles h (PublicationService.uses_auditService fun _ hop => hop)) fun _ => h.rollback _ _ _ _ _

theorem retention_keeps (id : String) : Keeps env G (PublicationService.retention config id) :=
  asides h (PublicationService.uses_retention aside_of_idle (fun _ _ _ _ _ => rfl) id)

theorem runPostPublicationAudit_keeps : Keeps env G (PublicationService.runPostPublicationAudit Γ config passes certificate) := by
  unfold PublicationService.runPostPublicationAudit PublicationService.enforcePostPublicationAudit
  split
  · exact Keeps.ret
  · split
    · exact Keeps.ret
    · refine Keeps.bind (Keeps.handle (h.audit _ _ _) fun x => ?_) fun successful => ?_
      · split
        · exact Keeps.ret
        · exact Keeps.raise
      · split
        · exact Keeps.ret
        · split
          · exact Keeps.raise
          · refine Keeps.bind (Keeps.attempt (rollback_keeps h _)) fun outcome => ?_
            cases outcome with
            | ok _ => exact Keeps.ret
            | error x =>
              simp only
              split
              · exact Keeps.bind (idles h (Program.uses_perform.2 rfl)) fun _ => Keeps.raise
              · exact Keeps.raise
  · refine Keeps.handle (Keeps.bind (h.audit _ _ _) fun _ => Keeps.ret) fun x => ?_
    split
    · exact Keeps.ret
    · exact Keeps.raise

theorem publish_keeps {operationType : OperationType} (hop : operationType ≠ .audit ∧ operationType ≠ .rollback) (id : String) :
    Keeps env G (PublicationService.publish Γ config passes id operationType) := by
  refine Keeps.bind keeps_ofExcept fun certificate => ?_
  refine Keeps.bind (idles h (PublicationService.uses_requireProductionQualification fun _ hop => hop)) fun _ => ?_
  refine loaded_keeps h fun material _ hmaterial => ?_
  refine Keeps.bind (idles h (uses_buildChain fun _ hop => hop)) fun chain => ?_
  refine Keeps.bind (idles h (Program.uses_perform.2 rfl)) fun _ => ?_
  refine Keeps.bind (idles h (PublicationService.uses_openPorts fun _ hop => hop)) fun _ => ?_
  refine Keeps.bind (idles h (Program.uses_perform.2 rfl)) fun now => ?_
  refine Keeps.bind (h.publication _ _ _ _ _ _ hmaterial hop) fun result => ?_
  refine Keeps.bind (idles h (Program.uses_perform.2 rfl)) fun _ => ?_
  refine Keeps.bind (runPostPublicationAudit_keeps h) fun _ => ?_
  exact Keeps.bind (asides h (PublicationService.uses_runPostPublicationRetention aside_of_idle fun _ _ _ _ _ => rfl))
    fun _ => Keeps.ret

theorem renew_keeps (id : String) (force : Bool) : Keeps env G (PublicationService.renew Γ config passes id force) := by
  refine Keeps.bind keeps_ofExcept fun certificate => ?_
  refine Keeps.bind (idles h (PublicationService.uses_requireProductionQualification fun _ hop => hop)) fun _ => ?_
  refine Keeps.bind (idles h (PublicationService.uses_runPreflight fun _ hop => hop)) fun _ => ?_
  refine Keeps.bind (idles h (PublicationService.uses_beforeFingerprint fun _ hop => hop)) fun _ => ?_
  refine Keeps.bind (idles h (Program.uses_perform.2 rfl)) fun _ => ?_
  refine Keeps.bind (asides h (NativeAcmeService.uses_issue aside_of_idle (fun _ _ => rfl) (fun _ _ => rfl) (fun _ => rfl) _))
    fun _ => ?_
  exact Keeps.bind (idles h (Program.uses_perform.2 rfl)) fun _ => publish_keeps h (by decide) _

theorem bootstrap_keeps (id : String) : Keeps env G (PublicationService.bootstrap Γ config id) := by
  refine Keeps.bind keeps_ofExcept fun certificate => ?_
  split
  · exact Keeps.raise
  · refine Keeps.bind (idles h (PublicationService.uses_requireProductionQualification fun _ hop => hop)) fun _ => ?_
    refine Keeps.bind (idles h (PublicationService.uses_runPreflight fun _ hop => hop)) fun _ => ?_
    refine Keeps.bind (idles h (Program.uses_perform.2 rfl)) fun _ => ?_
    refine Keeps.bind (asides h (NativeAcmeService.uses_issue aside_of_idle (fun _ _ => rfl) (fun _ _ => rfl) (fun _ => rfl) _))
      fun _ => ?_
    refine Keeps.bind (idles h (Program.uses_perform.2 rfl)) fun _ => ?_
    refine loaded_keeps h fun material _ hmaterial => ?_
    refine Keeps.bind (idles h (uses_buildChain fun _ hop => hop)) fun chain => ?_
    refine Keeps.bind (idles h (PublicationService.uses_openPorts fun _ hop => hop)) fun _ => ?_
    refine Keeps.bind (h.recovery _ _ _) fun recovered => ?_
    cases recovered with
    | some result => exact Keeps.ret
    | none => exact h.creation _ _ _ _ hmaterial

theorem attemptRenewal_keeps : Keeps env G (PublicationService.attemptRenewal Γ config passes certificate) := by
  unfold PublicationService.attemptRenewal
  split
  · exact renew_keeps h _ _
  · refine Keeps.bind (idles h (Program.uses_perform.2 rfl)) fun _ => ?_
    refine Keeps.bind (idles h (Program.uses_perform.2 rfl)) fun recovered => ?_
    cases recovered with
    | none => exact Keeps.bind (bootstrap_keeps h _) fun _ => Keeps.ret
    | some ocid => exact renew_keeps h _ _

end Parts

end Disciplines

open Disciplines

theorem PartsKeep.services {Γ : Ctx} {env : Env publisher Exc W} {G : W → W → Prop} {loaded : LineageMaterial → Prop}
    (h : PartsKeep Γ env G loaded) (passes : Nat) (config : AppConfig) : ServicesKeep Γ passes config env G where
  idle op hop := h.aside op (aside_of_idle op hop)
  publish id _ hop := publish_keeps h hop id
  renew := renew_keeps h
  attempt _ _ := attemptRenewal_keeps h
  bootstrap := bootstrap_keeps h
  audit := h.audit config passes
  rollback := rollback_keeps h
  retention := retention_keeps h

/-! ## The commands, from the services -/

namespace ServicesKeep

variable {Γ : Ctx} {passes : Nat} {config : AppConfig} {env : Env publisher Exc W} {G : W → W → Prop}

/-- The operation of a timer run is about configured certificate sets. -/
def configured (config : AppConfig) : PublicationService.BatchOp → Prop
  | .attempt certificate => certificate ∈ config.certificates
  | _ => True

theorem uses_renewSets (l : List CertificateConfig) (hl : ∀ certificate ∈ l, certificate ∈ config.certificates)
    (result : RenewalBatchResult) : (PublicationService.renewSets config l result).Uses (configured config) := by
  have hfail : ∀ certificate x result, (PublicationService.keepFailure certificate x result).Uses (configured config) := by
    intro certificate x result
    unfold PublicationService.keepFailure
    split
    · exact Program.uses_bind (Program.uses_perform.2 trivial) fun _ => trivial
    · trivial
  induction l generalizing result with
  | nil => trivial
  | cons certificate rest ih =>
    refine Program.uses_bind ?_ fun _ => Program.uses_bind ?_ fun result => ih (fun c hc => hl c (List.mem_cons_of_mem _ hc))
      result
    · unfold PublicationService.warnUnverified
      split
      · exact Program.uses_perform.2 trivial
      · trivial
    · refine Program.uses_bind (Program.uses_attempt (Program.uses_perform.2 (hl _ List.mem_cons_self))) fun outcome => ?_
      cases outcome with
      | error x => exact hfail _ _ _
      | ok publication =>
        refine Program.uses_bind (Program.uses_attempt (Program.uses_perform.2 trivial)) fun notified => ?_
        cases notified with
        | error x => exact hfail _ _ _
        | ok _ => trivial

variable (h : ServicesKeep Γ passes config env G)

include h

theorem frame {α : Type} {p : Action α} (hp : p.Uses fun op : Op => op.idle = true) : Keeps env G p := Keeps.frame hp h.idle

theorem renewAll : Keeps env G (PublicationService.renewAll Γ config passes) := by
  refine Keeps.subst (uses_renewSets _ (fun _ hc => hc) _) fun op hop => ?_
  cases op with
  | attempt certificate => exact h.attempt certificate hop
  | notifyExpiry certificate => exact frame h (uses_notifyExpiry fun _ hidle => hidle)
  | notifyUnverified certificate | notifyFailure certificate error =>
    exact frame h (PublicationService.uses_notifyEvent (fun _ hidle => hidle) _ _)

theorem renewals (id : Option String) (force : Bool) : Keeps env G (Commands.renewals Γ passes config id force) := by
  cases id with
  | none => exact renewAll h
  | some id => exact Keeps.bind (h.renew id force) fun _ => Keeps.ret

theorem liveProbe (certificate : CertificateConfig) : Keeps env G (CompatibilityProbe.liveProbe Γ config passes certificate) := by
  have haudit : ∀ message, Keeps env G (CompatibilityProbe.requireAudit Γ config passes certificate.id message) := by
    intro message
    refine Keeps.bind (h.audit _) fun successful => ?_
    split
    · exact Keeps.ret
    · exact Keeps.raise
  refine Keeps.bind keeps_ofExcept fun _ => Keeps.bind (h.publish _ _ (by decide)) fun baseline => ?_
  refine Keeps.bind (frame h ((CommandLineAux.uses_offline config certificate).mono idle_of_lockless)) fun offline => ?_
  refine Keeps.bind (h.renew _ _) fun published => Keeps.bind (haudit _) fun _ => ?_
  refine Keeps.bind (h.rollback _) fun rollback => Keeps.bind (haudit _) fun _ => ?_
  split
  · exact Keeps.raise
  · exact Keeps.ret

end ServicesKeep

/-- What the services keep to in a part of the world, with every configuration the command may load, the command keeps to: its own
operations leave that part alone. -/
theorem ServicesKeep.command {V : Type} {Γ : Ctx} {passes : Nat} {line : CommandLine} {env : Env publisher Exc W}
    {G : W → W → Prop}
    {env' : Env commands Exc V} (π : V → W) (loads : AppConfig → Prop)
    (hload : ∀ v config v', env' v (.inl (.loadConfig line.path)) (.ok config) v' → loads config)
    (hown : ∀ v op answer v', env' v (.inl op) answer v' → G (π v) (π v'))
    (hservice : ∀ v op answer v', env' v (.inr op) answer v' → env (π v) op answer (π v'))
    (h : ∀ config, loads config → ServicesKeep Γ passes config env G) :
    Keeps env' (fun v v' => G (π v) (π v')) (line.job Γ passes).body := by
  have hconsole : ∀ op, Keeps env' (fun v v' => G (π v) (π v')) (console op) :=
    fun op => Keeps.perform fun v answer v' hop => hown v op answer v' hop
  have hright : ∀ {α : Type} {p : Action α}, Keeps env G p → Keeps env' (fun v v' => G (π v) (π v')) p.right :=
    fun hp => Keeps.right hservice hp
  have hprinted : ∀ op₁ op₂ (code : ExitCode), Keeps env' (fun v v' => G (π v) (π v'))
      ((console op₁).bind fun _ => (console op₂).bind fun _ => .ret code) :=
    fun op₁ op₂ code => Keeps.bind (hconsole _) fun _ => Keeps.bind (hconsole _) fun _ => Keeps.ret
  have hloaded : ∀ {f : AppConfig → Command ExitCode}, (∀ config, loads config → Keeps env' (fun v v' => G (π v) (π v'))
    (f config)) →
      Keeps env' (fun v v' => G (π v) (π v')) ((Commands.loaded line.path).bind f) := by
    intro f hf
    refine Guarded.bind (R := fun config _ => loads config) ?_ fun config v hv => hf config hv v trivial
    refine Guarded.bind (R := fun config _ => loads config) ?_ fun config => ?_
    · exact Guarded.perform (fun v answer v' _ hop => hown v _ answer v' hop) (fun v config v' _ hop => hload v config v' hop)
        fun _ _ _ _ _ => trivial
    · refine Guarded.bind (R := fun _ _ => loads config) ?_ fun _ => Guarded.ret fun _ hc => hc
      exact Guarded.perform (fun v answer v' _ hop => hown v _ answer v' hop) (fun _ _ _ hc _ => hc) fun _ _ _ _ _ => trivial
  cases line with
  | publish path id | reconcile path id =>
    exact hloaded fun config hc => Keeps.bind (hright ((h config hc).publish id _ (by decide))) fun _ => hprinted _ _ _
  | renew path id force =>
    exact hloaded fun config hc => Keeps.bind (hright ((h config hc).renewals id force)) fun _ => hprinted _ _ _
  | bootstrap path id =>
    exact hloaded fun config hc => Keeps.bind (hright ((h config hc).bootstrap id)) fun _ => hprinted _ _ _
  | rollback path id =>
    exact hloaded fun config hc => Keeps.bind (hright ((h config hc).rollback id)) fun _ => hprinted _ _ _
  | retention path id =>
    exact hloaded fun config hc => Keeps.bind (hright ((h config hc).retention id)) fun _ => hprinted _ _ _
  | audit path id =>
    exact hloaded fun config hc => Keeps.bind (hright ((h config hc).audit id)) fun _ => Keeps.bind (hconsole _) fun _ =>
      Keeps.bind keeps_ofExcept fun certificate => Keeps.bind (hconsole _) fun _ => Keeps.ret
  | liveProbe path id =>
    exact hloaded fun config hc => Keeps.bind keeps_ofExcept fun certificate => Keeps.bind keeps_ofExcept fun _ =>
      Keeps.bind (hright ((h config hc).liveProbe certificate)) fun _ => Keeps.bind (hconsole _) fun _ => Keeps.ret
  | stagingVerify path id evidenceOutput =>
    exact hloaded fun config hc => Keeps.bind keeps_ofExcept fun certificate => Keeps.bind keeps_ofExcept fun _ =>
      Keeps.bind (hright ((h config hc).liveProbe certificate)) fun _ => hprinted _ _ _
  | _ => exact fun _ _ => trivial

end OciAcmePublisher
