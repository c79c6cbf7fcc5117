import OciAcmePublisher.CommandLine
import OciAcmePublisher.Lemmas.Footprints

/-!
# What the commands do to the publisher's world

A command's own operations leave the world alone, so a run of a command changes it as the run of the service it asks.
-/

namespace OciAcmePublisher

open Effects

/-- What a command asks of the services. -/
inductive ServiceRequest where
  | publish (config : AppConfig) (certificateId : String) (operationType : OperationType)
  | renewals (config : AppConfig) (certificateId : Option String) (force : Bool)
  | bootstrap (config : AppConfig) (certificateId : String)
  | rollback (config : AppConfig) (certificateId : String)
  | retention (config : AppConfig) (certificateId : String)
  | audit (config : AppConfig) (certificateId : String)
  | liveProbe (config : AppConfig) (certificate : CertificateConfig)
  deriving DecidableEq

/-- The certificate set is configured to observe its endpoints only. -/
def observesOnly (config : AppConfig) (certificateId : String) : Bool :=
  match configuredCertificate config certificateId with
  | .ok certificate => certificate.audit.mode = .observe
  | .error _ => false

/-- The run of the service that was asked, and whether the command takes its result for a success. -/
def ServiceRequest.run (Γ : Ctx) (passes : Nat) : ServiceRequest → Action Bool
  | .publish config id operationType => (PublicationService.publish Γ config passes id operationType).bind fun _ => .ret true
  | .renewals config id force =>
    (Commands.renewals Γ passes config id force).bind fun batch => .ret (decide (batch.failures = []))
  | .bootstrap config id => (PublicationService.bootstrap Γ config id).bind fun _ => .ret true
  | .rollback config id => (PublicationService.rollback Γ config passes id).bind fun _ => .ret true
  | .retention config id => (PublicationService.retention config id).bind fun _ => .ret true
  | .audit config id =>
    (PublicationService.audit Γ config passes id).bind fun successful => .ret (successful || observesOnly config id)
  | .liveProbe config certificate => (CompatibilityProbe.liveProbe Γ config passes certificate).bind fun _ => .ret true

namespace CommandLine

/-- The configuration file of a command. -/
def path : CommandLine → String
  | .publish path _ | .reconcile path _ | .renew path _ _ | .bootstrap path _ | .rollback path _ | .retention path _
  | .audit path _ | .liveProbe path _ | .stagingVerify path _ _ | .validateConfig path _ | .preflight path _ | .onboard path _
  | .offlineProbe path _ => path

/-- The command runs under the publisher lock. -/
def mutates : CommandLine → Bool
  | .validateConfig .. | .preflight .. | .onboard .. | .offlineProbe .. => false
  | _ => true

/-- What a command asks of the services, with the configuration it has loaded. -/
def asks (config : AppConfig) : CommandLine → ServiceRequest → Prop
  | .publish _ id, request => request = .publish config id .publish
  | .reconcile _ id, request => request = .publish config id .reconcile
  | .renew _ id force, request => request = .renewals config id force
  | .bootstrap _ id, request => request = .bootstrap config id
  | .rollback _ id, request => request = .rollback config id
  | .retention _ id, request => request = .retention config id
  | .audit _ id, request => request = .audit config id
  | .liveProbe _ id, request | .stagingVerify _ id _, request => ∃ certificate ∈ config.certificates, certificate.id = id ∧
      CompatibilityProbe.requireLiveTestEnvironment config certificate = .ok () ∧ request = .liveProbe config certificate
  | _, _ => False

end CommandLine

/-- The operation changes what the publisher lock guards: OCI, the state database, which opening it creates and migrates, or a
lineage. -/
def Op.changesShared : Op → Bool
  | .createImportedCertificate .. | .uploadPendingVersion .. | .promoteCurrent .. | .scheduleVersionDeletion .. => true
  | .sql (.insertOperation _) | .sql (.updateOperation ..) | .sql (.completeReconciled ..) => true
  | .sql (.completeInterruptedAudits ..) | .sql (.upsertFacts ..) | .sql (.upsertAlert ..) => true
  | .openStore _ | .commitLineage .. => true
  | _ => false

/-- The operation writes the metrics textfile or the staging evidence. -/
def CommandOp.changesShared : CommandOp → Bool
  | .writeConfiguredMetrics _ | .writeEvidence .. => true
  | _ => false

/-- The operation changes what the publisher lock guards. -/
def ChangesShared : commands.Op → Prop
  | .inl op => op.changesShared = true
  | .inr op => op.changesShared = true

/-- The operation reads, logs, or tries a route with a challenge file. -/
def Op.lockless : Op → Bool
  | .getCertificate .. | .listVersions .. | .getVersion .. | .getPublicBundle .. | .createAdapters _ => true
  | .sql (.selectActive _) | .sql (.selectConfirmedOcid _) | .sql (.selectAlert _) => true
  | .now | .uuid4 | .logEvent .. | .readFile _ | .readEvidence _ | .lineageExists _ | .loadLineage _ | .preflight .. => true
  | _ => false

/-- What a command may do without the lock. -/
def Lockless : commands.Op → Prop
  | .inl op => op.changesShared = false
  | .inr op => op.lockless = true

theorem not_changesShared_of_lockless {op : commands.Op} (h : Lockless op) : ¬ChangesShared op := by
  cases op with
  | inl op =>
    have hop : op.changesShared = false := h
    exact Bool.eq_false_iff.1 hop
  | inr op =>
    have hop : op.lockless = true := h
    show ¬op.changesShared = true
    cases op with
    | sql statement => cases statement <;> first | exact Bool.false_ne_true | cases hop
    | _ => first | exact Bool.false_ne_true | cases hop

theorem service_lockless {Γ : Ctx} {faults : Faults} {w w' : World} {op : Op} {answer : Except Exc op.Reply}
    (h : service Γ faults w op answer w') (hop : op.lockless = true) : w' = w := by
  rcases service_cases h with ⟨hobserves, -⟩ | rfl | ⟨reply, hstep⟩
  · have hnot : op.observes = false := by cases op <;> first | rfl | cases hop
    rw [hnot] at hobserves
    cases hobserves
  · rfl
  · cases op with
    | sql statement =>
      obtain ⟨db, hdb, rfl⟩ := hstep
      have heq : db = w.database := by cases statement <;> first | exact hdb.1 | cases hop
      rw [heq]
    | getCertificate | listVersions | getVersion | getPublicBundle | lineageExists | loadLineage => exact hstep.1
    | createAdapters | now | uuid4 | logEvent | readFile | readEvidence | preflight => exact hstep
    | _ => cases hop

namespace CommandLineAux

variable {Γ : Ctx} {faults : Faults} {commandFaults : CommandOp → Exc → Prop} {loads : String → AppConfig → Prop} {α β : Type}
  {w w' : World} {passes : Nat}

/-- A command's own operation leaves the world alone. -/
theorem console_eq {op : CommandOp} {answer : Except Exc op.Reply}
    (h : commandEnv Γ faults commandFaults loads w (.inl op) answer w') : w' = w := by
  cases answer with
  | error x => cases op <;> exact h.2
  | ok reply =>
    cases op with
    | loadConfig path => exact h.2
    | _ => exact h

theorem lockless_eq {op : commands.Op} {answer : Except Exc (commands.Reply op)} (hop : Lockless op)
    (h : commandEnv Γ faults commandFaults loads w op answer w') : w' = w := by
  cases op with
  | inl op => exact console_eq h
  | inr op => exact service_lockless h hop

/-! ## Footprints -/

/-- The operation is the command's own. -/
def own : commands.Op → Prop
  | .inl _ => True
  | .inr _ => False

theorem uses_console {op : CommandOp} (hop : op.changesShared = false) : (console op).Uses Lockless := Program.uses_perform.2 hop

/-- The last operations of a command without the lock. -/
theorem uses_printed {op : CommandOp} (hop : op.changesShared = false) (code : ExitCode) :
    ((console op).bind fun _ => (.ret code : Command ExitCode)).Uses Lockless :=
  Program.uses_bind (uses_console hop) fun _ => trivial

theorem uses_mainStatus (ended : Except Exc ExitCode) : (mainStatus ended).Uses Lockless := by
  cases ended with
  | ok code => trivial
  | error x =>
    unfold mainStatus
    simp only
    split
    · exact Program.uses_bind (uses_console rfl) fun _ => uses_printed (by rfl) _
    · trivial

theorem uses_loaded (path : String) : (Commands.loaded path).Uses Lockless :=
  Program.uses_bind (uses_console rfl) fun _ => Program.uses_bind (uses_console rfl) fun _ => trivial

theorem uses_validateConfig (path : String) (asJson : Bool) : (Commands.validateConfig path asJson).Uses Lockless := by
  refine Program.uses_bind (uses_loaded path) fun config => Program.uses_bind (uses_console rfl) fun _ => ?_
  cases asJson
  · exact uses_printed rfl _
  · exact uses_printed rfl _

theorem uses_search (profile : CertificateProfile) (paths : List String) :
    (requireQualifiedProfile.search profile paths).Uses fun op : Op => op.lockless = true := by
  induction paths with
  | nil => trivial
  | cons path rest ih =>
    refine Program.uses_bind (Program.uses_perform.2 rfl) fun payload => ?_
    split
    · trivial
    · exact ih

theorem uses_requireQualified (config : AppConfig) (certificates : List CertificateConfig) :
    (Commands.requireQualified config certificates).Uses fun op : Op => op.lockless = true := by
  induction certificates with
  | nil => trivial
  | cons certificate rest ih =>
    refine Program.uses_bind ?_ fun _ => ih
    unfold requireQualifiedProfile
    split
    · trivial
    · exact uses_search _ _

theorem uses_verifyClock : (OperationalPreflight.verifyClock Γ).Uses Lockless := by
  refine Program.uses_bind (Program.uses_attempt (uses_console rfl)) fun outcome => ?_
  rcases outcome with x | _ | ⟨returnCode, output⟩
  · simp only
    split <;> trivial
  · trivial
  · simp only
    split <;> trivial

theorem uses_verifyResponder (http01 : Http01Config) : (OperationalPreflight.verifyResponder http01).Uses Lockless := by
  refine Program.uses_bind (Program.uses_attempt (uses_console rfl)) fun outcome => ?_
  cases outcome with
  | error x =>
    simp only
    split <;> trivial
  | ok response =>
    simp only
    split <;> trivial

theorem uses_verifyRootPin (certificate : CertificateConfig) :
    (OperationalPreflight.verifyRootPin Γ certificate).Uses fun op : Op => op.lockless = true := by
  refine Program.uses_bind (Program.uses_attempt (Program.uses_perform.2 rfl)) fun content => ?_
  cases content with
  | error x =>
    simp only
    split <;> trivial
  | ok raw =>
    simp only
    split
    · trivial
    · split <;> trivial

theorem uses_verifyLocal (http01 : Http01Config) (certificates : List CertificateConfig) :
    (OperationalPreflight.verifyLocal Γ http01 certificates).Uses Lockless := by
  induction certificates with
  | nil => trivial
  | cons certificate rest ih =>
    refine Program.uses_bind (Program.uses_bind (uses_console rfl) fun found => ?_) fun _ =>
      Program.uses_bind (Program.uses_right (uses_verifyRootPin certificate)) fun _ => ih
    split <;> trivial

theorem uses_verifyOciReads (certificates : List CertificateConfig) :
    (OperationalPreflight.verifyOciReads certificates).Uses fun op : Op => op.lockless = true := by
  induction certificates with
  | nil => trivial
  | cons certificate rest ih =>
    refine Program.uses_bind (Program.uses_bind (Program.uses_perform.2 rfl) fun _ => ?_) fun _ => ih
    split
    · trivial
    · exact Program.uses_bind (Program.uses_perform.2 rfl) fun _ => Program.uses_bind (Program.uses_perform.2 rfl) fun _ => trivial

theorem uses_tryRoutes (certificates : List CertificateConfig) :
    (OperationalPreflight.tryRoutes certificates).Uses fun op : Op => op.lockless = true := by
  induction certificates with
  | nil => trivial
  | cons certificate rest ih => exact Program.uses_bind (Program.uses_perform.2 rfl) fun _ => ih

/-- An operational preflight changes nothing that the lock guards. -/
theorem uses_operationalPreflight (config : AppConfig) (certificates : List CertificateConfig) :
    (OperationalPreflight.run Γ config certificates).Uses Lockless := by
  refine Program.uses_bind uses_verifyClock fun _ => Program.uses_bind (uses_verifyResponder _) fun _ => ?_
  refine Program.uses_bind (uses_verifyLocal _ _) fun _ => ?_
  exact Program.uses_bind (Program.uses_right (uses_verifyOciReads _)) fun _ => Program.uses_right (uses_tryRoutes _)

theorem uses_preflight (path : String) (certificateId : Option String) :
    (Commands.preflight Γ path certificateId).Uses Lockless := by
  refine Program.uses_bind (uses_loaded path) fun config => ?_
  simp only
  split
  · trivial
  · split
    · exact Program.uses_bind (Program.uses_right (uses_requireQualified config _)) fun _ =>
        Program.uses_bind (uses_operationalPreflight config _) fun _ => uses_printed (by rfl) _
    · exact Program.uses_bind (uses_operationalPreflight config _) fun _ => uses_printed (by rfl) _

theorem uses_offline (config : AppConfig) (certificate : CertificateConfig) :
    (CompatibilityProbe.offlineProbe Γ config certificate).Uses fun op : Op => op.lockless = true := by
  refine Program.uses_bind (Program.uses_perform.2 rfl) fun material => ?_
  refine Program.uses_bind (Program.uses_handle ?_ fun error => ?_) fun profile => trivial
  · refine Program.uses_bind (Program.uses_perform.2 rfl) fun now => Program.uses_bind uses_ofExcept fun _ => ?_
    refine Program.uses_bind (Program.uses_bind ?_ fun _ => uses_ofExcept) fun _ => trivial
    refine Program.uses_bind (Program.uses_attempt (Program.uses_perform.2 rfl)) fun content => ?_
    cases content with
    | ok raw => trivial
    | error x =>
      simp only
      split <;> trivial
  · split <;> trivial

theorem uses_offlineProbe (path certificateId : String) : (Commands.offlineProbe Γ path certificateId).Uses Lockless := by
  refine Program.uses_bind (uses_loaded path) fun config => Program.uses_bind uses_ofExcept fun certificate => ?_
  exact Program.uses_bind (Program.uses_right (uses_offline config certificate)) fun _ => uses_printed rfl _

/-- What runs without the lock changes nothing that it guards. -/
theorem outside_job (Γ : Ctx) (passes : Nat) (line : CommandLine) : (line.job Γ passes).Outside Lockless := by
  have hreport : ∀ p : Command ExitCode, p.Uses Lockless → (p.attempt.bind mainStatus).Uses Lockless :=
    fun p hp => Program.uses_bind (Program.uses_attempt hp) uses_mainStatus
  cases line with
  | validateConfig path asJson => exact hreport _ (uses_validateConfig path asJson)
  | preflight path id => exact hreport _ (uses_preflight path id)
  | onboard path id =>
    exact hreport _ (Program.uses_bind (uses_preflight path id) fun _ => uses_printed rfl _)
  | offlineProbe path id => exact hreport _ (uses_offlineProbe path id)
  | _ => exact uses_mainStatus

/-! ## Runs -/

/-- A command's own operation, and what follows it. -/
theorem exec_console {op : CommandOp} {f : op.Reply → Command α} {o : Outcome Exc α}
    (h : Exec (commandEnv Γ faults commandFaults loads) ((console op).bind f) w o w') :
    (w' = w ∧ ∀ a, o ≠ .returned a) ∨ ∃ reply, commandEnv Γ faults commandFaults loads w (.inl op) (.ok reply) w ∧
      Exec (commandEnv Γ faults commandFaults loads) (f reply) w o w' := by
  rcases exec_bind_iff.1 h with ⟨reply, w₁, hop, hrest⟩ | ⟨x, rfl, hop⟩ | ⟨rfl, hop⟩
  · rcases exec_perform_iff.1 hop with ⟨hc, -⟩ | ⟨answer, hstep, ho | ho⟩
    · cases hc
    · obtain rfl := console_eq hstep
      cases answer with
      | ok a =>
        cases ho
        exact Or.inr ⟨reply, hstep, hrest⟩
      | error x => cases ho
    · cases ho
  · rcases exec_perform_iff.1 hop with ⟨hc, -⟩ | ⟨answer, hstep, -⟩
    · cases hc
    · exact Or.inl ⟨console_eq hstep, nofun⟩
  · rcases exec_perform_iff.1 hop with ⟨-, rfl⟩ | ⟨answer, hstep, -⟩
    · exact Or.inl ⟨rfl, nofun⟩
    · exact Or.inl ⟨console_eq hstep, nofun⟩

theorem loaded_bind (path : String) (f : AppConfig → Command α) : (Commands.loaded path).bind f =
    (console (.loadConfig path)).bind fun config => (console (.configureLogging config)).bind fun _ => f config := by
  refine (Program.bind_assoc _ _ f).trans ?_
  congr 1
  funext config
  exact Program.bind_assoc _ _ f

theorem exec_loaded {path : String} {f : AppConfig → Command α} {o : Outcome Exc α}
    (h : Exec (commandEnv Γ faults commandFaults loads) ((Commands.loaded path).bind f) w o w') :
    (w' = w ∧ ∀ a, o ≠ .returned a) ∨ ∃ config, loads path config ∧
      Exec (commandEnv Γ faults commandFaults loads) (f config) w o w' := by
  rw [loaded_bind] at h
  rcases exec_console h with hleft | ⟨config, hload, hrest⟩
  · exact Or.inl hleft
  · rcases exec_console hrest with hleft | ⟨-, -, hrest⟩
    · exact Or.inl hleft
    · exact Or.inr ⟨config, hload.1, hrest⟩

theorem exec_ofExcept {e : Except Exc β} {f : β → Command α} {o : Outcome Exc α}
    (h : Exec (commandEnv Γ faults commandFaults loads) ((ofExcept e).bind f) w o w') :
    (w' = w ∧ ∀ a, o ≠ .returned a) ∨ ∃ b, e = .ok b ∧ Exec (commandEnv Γ faults commandFaults loads) (f b) w o w' := by
  cases e with
  | ok b => exact Or.inr ⟨b, rfl, h⟩
  | error x =>
    obtain ⟨rfl, rfl | rfl⟩ := exec_raise_iff.1 h
    · exact Or.inl ⟨rfl, nofun⟩
    · exact Or.inl ⟨rfl, nofun⟩

/-- A service's run, and what the command makes of its result. -/
theorem exec_served {p : Action β} {f : β → Command ExitCode} {g : β → Bool} {o : Outcome Exc ExitCode}
    (hf : ∀ b, (f b).Uses own) (hg : ∀ b, (f b).Yields fun code => code = .success ↔ g b = true)
    (h : Exec (commandEnv Γ faults commandFaults loads) (p.right.bind f) w o w') :
    ∃ o', Exec (service Γ faults) (p.bind fun b => .ret (g b)) w o' w' ∧
      ∀ code, o = .returned code → ∃ done, o' = .returned done ∧ (code = .success ↔ done = true) := by
  have hright : ∀ {o w'}, Exec (commandEnv Γ faults commandFaults loads) (p.right : Command β) w o w' →
      Exec (service Γ faults) p w o w' := fun hx => (exec_right_iff fun _ _ _ _ => Iff.rfl).1 hx
  rcases exec_bind_iff.1 h with ⟨b, w₁, hp, hrest⟩ | ⟨x, rfl, hp⟩ | ⟨rfl, hp⟩
  · have hw : w' = w₁ := by
      refine hrest.keeps (I := (· = w₁)) (fun w op r w' hop hw hstep => ?_) (hf b) rfl
      cases op with
      | inl op => exact (console_eq hstep).trans hw
      | inr op => exact absurd hop id
    subst hw
    refine ⟨.returned (g b), exec_bind_iff.2 (Or.inl ⟨b, w', hright hp, .ret _ _⟩), fun code ho => ⟨g b, rfl, ?_⟩⟩
    exact Exec.yields (hg b) hrest ho
  · exact ⟨.raised x, exec_bind_iff.2 (Or.inr (Or.inl ⟨x, rfl, hright hp⟩)), nofun⟩
  · exact ⟨.crashed, exec_bind_iff.2 (Or.inr (Or.inr ⟨rfl, hright hp⟩)), nofun⟩

/-! ## Requests -/

/-- The command's end says of the result what `g` does, and is the command's own. -/
def Ends (p : Command ExitCode) (done : Bool) : Prop := p.Uses own ∧ p.Yields fun code => code = .success ↔ done = true

theorem ends_ret {code : ExitCode} {done : Bool} (h : code = .success ↔ done = true) : Ends (.ret code) done := ⟨trivial, h⟩

theorem ends_console {op : CommandOp} {f : op.Reply → Command ExitCode} {done : Bool} (hf : ∀ r, Ends (f r) done) :
    Ends ((console op).bind f) done :=
  ⟨Program.uses_bind (Program.uses_perform.2 trivial) fun r => (hf r).1, Program.yields_last _ fun r => (hf r).2⟩

theorem renewStatus_success (batch : RenewalBatchResult) : renewStatus batch = .success ↔ decide (batch.failures = []) =
    true := by
  have hcode : ∀ errors, renewalExitCode errors ≠ .success := by
    intro errors
    unfold renewalExitCode
    repeat' split
    all_goals exact nofun
  unfold renewStatus
  split
  · rename_i h
    simp [h]
  · rename_i h
    simp [h, hcode]

/-- A run of a command under the lock: it ends before it asks anything of the services, or its world is what the run of
the service it asks leads to, and its code is that of the service's result. -/
def Served (Γ : Ctx) (faults : Faults) (loads : String → AppConfig → Prop) (passes : Nat) (line : CommandLine) (w w' : World)
    (o : Outcome Exc ExitCode) : Prop :=
  (w' = w ∧ ∀ code, o ≠ .returned code) ∨ ∃ config request o', loads line.path config ∧ line.asks config request ∧
    Exec (service Γ faults) (request.run Γ passes) w o' w' ∧
      ∀ code, o = .returned code → ∃ done, o' = .returned done ∧ (code = .success ↔ done = true)

/-- A command that loads its configuration and asks one service. -/
theorem served (line : CommandLine) {ask : AppConfig → Action β} {rest : AppConfig → β → Command ExitCode}
    (g : AppConfig → β → Bool) (request : AppConfig → ServiceRequest)
    (hasks : ∀ config, line.asks config (request config))
    (hrun : ∀ config, (request config).run Γ passes = (ask config).bind fun b => .ret (g config b))
    (hrest : ∀ config b, Ends (rest config b) (g config b)) {o : Outcome Exc ExitCode}
    (h : Exec (commandEnv Γ faults commandFaults loads)
      ((Commands.loaded line.path).bind fun config => (ask config).right.bind (rest config)) w o w') :
    Served Γ faults loads passes line w w' o := by
  rcases exec_loaded h with hleft | ⟨config, hload, hrest'⟩
  · exact Or.inl hleft
  · obtain ⟨o', hx, hcode⟩ := exec_served (fun b => (hrest config b).1) (fun b => (hrest config b).2) hrest'
    rw [← hrun] at hx
    exact Or.inr ⟨config, request config, o', hload, hasks config, hx, hcode⟩

/-- A command that loads its configuration, finds its certificate set and probes it. -/
theorem served_probe (line : CommandLine) (id : String) {find : AppConfig → Except Exc CertificateConfig}
    (hfind : ∀ config certificate, find config = .ok certificate → certificate ∈ config.certificates ∧ certificate.id = id)
    (hasks : ∀ config certificate, certificate ∈ config.certificates → certificate.id = id →
      CompatibilityProbe.requireLiveTestEnvironment config certificate = .ok () →
      line.asks config (.liveProbe config certificate))
    {rest : AppConfig → CertificateConfig → LiveCompatibilityProbeResult → Command ExitCode}
    (hrest : ∀ config certificate result, Ends (rest config certificate result) true) {o : Outcome Exc ExitCode}
    (h : Exec (commandEnv Γ faults commandFaults loads)
      ((Commands.loaded line.path).bind fun config => (ofExcept (find config)).bind fun certificate =>
        (ofExcept (CompatibilityProbe.requireLiveTestEnvironment config certificate)).bind fun _ =>
          (CompatibilityProbe.liveProbe Γ config passes certificate).right.bind (rest config certificate)) w o w') :
    Served Γ faults loads passes line w w' o := by
  rcases exec_loaded h with hleft | ⟨config, hload, h⟩
  · exact Or.inl hleft
  rcases exec_ofExcept h with hleft | ⟨certificate, hcertificate, h⟩
  · exact Or.inl hleft
  rcases exec_ofExcept h with hleft | ⟨⟨⟩, hlive, h⟩
  · exact Or.inl hleft
  obtain ⟨hmem, hid⟩ := hfind config certificate hcertificate
  obtain ⟨o', hx, hcode⟩ := exec_served (g := fun _ => true) (fun b => (hrest config certificate b).1)
    (fun b => (hrest config certificate b).2) h
  exact Or.inr ⟨config, .liveProbe config certificate, o', hload, hasks config certificate hmem hid hlive, hx, hcode⟩

/-- What every command under the lock does to the world. -/
theorem served_job {line : CommandLine} {o : Outcome Exc ExitCode}
    (h : Exec (commandEnv Γ faults commandFaults loads) (line.job Γ passes).body w o w') :
    Served Γ faults loads passes line w w' o := by
  cases line with
  | publish path id =>
    refine served (.publish path id) (fun _ _ => true) (fun config => .publish config id .publish) (fun _ => rfl)
      (fun _ => rfl) (fun config b => ?_) h
    exact ends_console fun _ => ends_console fun _ => ends_ret (by simp)
  | reconcile path id =>
    refine served (.reconcile path id) (fun _ _ => true) (fun config => .publish config id .reconcile) (fun _ => rfl)
      (fun _ => rfl) (fun config b => ?_) h
    exact ends_console fun _ => ends_console fun _ => ends_ret (by simp)
  | renew path id force =>
    refine served (.renew path id force) (fun _ batch => decide (batch.failures = []))
      (fun config => .renewals config id force) (fun _ => rfl) (fun _ => rfl) (fun config b => ?_) h
    exact ends_console fun _ => ends_console fun _ => ends_ret (renewStatus_success b)
  | bootstrap path id =>
    refine served (.bootstrap path id) (fun _ _ => true) (fun config => .bootstrap config id) (fun _ => rfl) (fun _ => rfl)
      (fun config b => ?_) h
    exact ends_console fun _ => ends_console fun _ => ends_ret (by simp)
  | rollback path id =>
    refine served (.rollback path id) (fun _ _ => true) (fun config => .rollback config id) (fun _ => rfl) (fun _ => rfl)
      (fun config b => ?_) h
    exact ends_console fun _ => ends_console fun _ => ends_ret (by simp)
  | retention path id =>
    refine served (.retention path id) (fun _ _ => true) (fun config => .retention config id) (fun _ => rfl) (fun _ => rfl)
      (fun config b => ?_) h
    exact ends_console fun _ => ends_console fun _ => ends_ret (by simp)
  | audit path id =>
    refine served (.audit path id) (fun config successful => successful || observesOnly config id)
      (fun config => .audit config id)
      (fun _ => rfl) (fun _ => rfl) (fun config successful => ends_console fun _ => ?_) h
    unfold observesOnly
    cases configuredCertificate config id with
    | error x => exact ⟨trivial, trivial⟩
    | ok certificate =>
      refine ends_console fun _ => ends_ret ?_
      split
      · rename_i hdone
        simp [hdone]
      · rename_i hdone
        simp [hdone]
  | liveProbe path id =>
    refine served_probe (.liveProbe path id) id (fun config certificate hfind => ?_)
      (fun config certificate hmem hid hlive => ⟨certificate, hmem, hid, hlive, rfl⟩)
      (fun config certificate result => ends_console fun _ => ends_ret (by simp)) h
    unfold Commands.probed at hfind
    split at hfind
    · cases hfind
    · rename_i found hfound
      cases hfind
      exact ⟨List.mem_of_find?_eq_some hfound, by simpa using List.find?_some hfound⟩
  | stagingVerify path id evidenceOutput =>
    refine served_probe (.stagingVerify path id evidenceOutput) id (fun config certificate hfind => ?_)
      (fun config certificate hmem hid hlive => ⟨certificate, hmem, hid, hlive, rfl⟩)
      (fun config certificate result => ends_console fun _ => ends_console fun _ => ends_ret (by simp)) h
    refine ⟨?_, configuredCertificate_id hfind⟩
    unfold configuredCertificate at hfind
    split at hfind
    · rename_i found hfound
      cases hfind
      exact List.mem_of_find?_eq_some hfound
    · cases hfind
  | _ =>
    obtain ⟨rfl, rfl⟩ := exec_diverge_iff.1 h
    exact Or.inl ⟨rfl, nofun⟩

end CommandLineAux

end OciAcmePublisher
