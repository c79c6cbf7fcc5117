import OciAcmePublisher.CommandSimulation
import OciAcmePublisher.Lemmas.Licences

/-!
# Nothing is issued or imported without its licence

Whatever the world answers, and wherever a command is killed: in production it issues and imports only for a certificate
set whose profile it has read retained evidence for, and what it gives to OCI is the stored material it has validated
and chained in that run.
-/

namespace OciAcmePublisher

open Effects Licences

variable {W : Type} {Γ : Ctx} {passes : Nat} {config : AppConfig} {line : CommandLine} {env : Env commands Exc W} {w w' : W}
  {o : Outcome Exc ExitCode} {t : List (Event commands Exc)}

/-- What a command performs under the lock has its licence by the configuration it has loaded. -/
theorem command_licensed (hload : ∀ w c w', env w (.inl (.loadConfig line.path)) (.ok c) w' → c = config)
    (h : Exec (recording env) (line.job Γ passes).body (w, []) o (w', t)) :
    Monitor.whole.Checked (Licensed Γ config) (rightEvents t) := by
  have hservices : ∀ c, c = config → ServicesKeep Γ passes c anyAnswer (Justifies (Licensed Γ config)) := by
    rintro c rfl
    exact services_licensed Γ passes c
  have hkeeps : Keeps (recording env) (fun s s' => Justifies (Licensed Γ config) (rightEvents s.2) (rightEvents s'.2))
      (line.job Γ passes).body := by
    refine ServicesKeep.command (fun s : W × List (Event commands Exc) => rightEvents s.2) (fun c => c = config)
      (fun s c s' hc => hload s.1 c s'.1 hc.1) ?_ ?_ hservices
    · rintro s op answer s' ⟨-, hs⟩
      have hsame : rightEvents s'.2 = rightEvents s.2 := hs ▸ rightEvents_inl s.2 op answer
      rw [hsame]
      exact justifies_refl _
    · rintro s op answer s' ⟨-, hs⟩
      exact hs ▸ rightEvents_inr s.2 op answer
  exact h.checked_right hkeeps

/-- In production a command places no order, commits no generation, creates no certificate and uploads no version,
whatever happens, unless the run has read retained staging evidence that qualifies the configured certificate set it is
for. -/
theorem production_is_qualified (hload : ∀ w c w', env w (.inl (.loadConfig line.path)) (.ok c) w' → c = config)
    (hproduction : config.global.environment = .production)
    (h : Exec (recording env) (line.job Γ passes).body (w, []) o (w', t)) {before after : Past} {e : Event publisher Exc}
    (ht : rightEvents t = before ++ e :: after) (hissues : e.op.issues = true) :
    ∃ certificate ∈ config.certificates, IsFor Γ certificate before e.op ∧ Qualified config certificate before := by
  have hlicensed := command_licensed hload h before e after ht
  rw [Monitor.after_whole] at hlicensed
  obtain ⟨certificate, hlicence⟩ := hlicensed hissues
  exact ⟨certificate, hlicence.configured, hlicence.isFor, hlicence.qualified hproduction⟩

namespace Licences

open Sample

/-- The production certificate set of the sample, with its audits switched off. -/
def produced : CertificateConfig := { certificate with audit := { mode := .disabled } }

/-- A production configuration with one evidence file. -/
def production : AppConfig :=
  { Sample.config produced with
    global := { environment := .production, stateDir := "/state" }
    compatibility := { enforceDocumentedSubjectCountry := false, liveVerified := true, liveEvidencePaths := ["/evidence.json"] } }

/-- Every evidence file qualifies the certificate set. -/
def evidenced : Script :=
  { script with
    evidence := fun _ => some {
      schemaVersion := some 2
      result := some "STAGING_COMPATIBILITY_PASSED"
      qualifiedProfile := some (certificateProfile produced) } }

/-- A publication in production, with what it performs. -/
def publication : Outcome Exc ExitCode × World × List (Event commands Exc) :=
  ((CommandLine.publish "/config.yaml" "web").job ctx 1).body.runFor (simulateCommand ctx evidenced production).record 100
    (world resource, [])

theorem publication_exec : Exec (recording (commandEnv ctx noFaults (fun _ _ => False) fun _ c => c = production))
    ((CommandLine.publish "/config.yaml" "web").job ctx 1).body (world resource, []) publication.1 publication.2 :=
  exec_runFor (simulateCommand_allowed ctx evidenced production noFaults fun _ _ => False).record 100 _ _

/-- Some operation of the publication is as the test says, and has a past. -/
theorem exists_performed (test : Op → Bool) (h : (rightEvents publication.2.2).any (fun e => test e.op) = true) :
    ∃ before e after, rightEvents publication.2.2 = before ++ e :: after ∧ test e.op = true := by
  obtain ⟨e, he, htest⟩ := List.any_eq_true.1 h
  obtain ⟨before, after, hsplit⟩ := List.append_of_mem he
  exact ⟨before, e, after, hsplit, htest⟩

end Licences

/-- The publication uploads, after it has read the evidence. -/
theorem production_is_qualified_publication :
    ∃ before e after, rightEvents publication.2.2 = before ++ e :: after ∧ e.op.issues = true ∧
      ∃ certificate ∈ production.certificates, Qualified production certificate before := by
  obtain ⟨before, e, after, hsplit, hissues⟩ := exists_performed Op.issues (by decide +kernel)
  obtain ⟨certificate, hc, -, hq⟩ := production_is_qualified (fun _ _ _ h => h.1) rfl publication_exec hsplit hissues
  exact ⟨before, e, after, hsplit, hissues, certificate, hc, hq⟩

/-- Whatever a command gives to OCI is, under a name made of its fingerprint, the material of a configured certificate
set, which the run has loaded before, found valid at a time it has read, and chained to the root file it has read. -/
theorem imports_are_vetted (hload : ∀ w c w', env w (.inl (.loadConfig line.path)) (.ok c) w' → c = config)
    (h : Exec (recording env) (line.job Γ passes).body (w, []) o (w', t)) {before after : Past} {e : Event publisher Exc}
    (ht : rightEvents t = before ++ e :: after) {imported : ImportedVersion} (himports : e.op.imports = some imported) :
    ∃ certificate ∈ config.certificates, IsFor Γ certificate before e.op ∧ Imports Γ config certificate imported before := by
  have hissues : e.op.issues = true := by
    obtain ⟨op, answer⟩ := e
    cases op <;> first | rfl | cases himports
  have hlicensed := command_licensed hload h before e after ht
  rw [Monitor.after_whole] at hlicensed
  obtain ⟨certificate, hlicence⟩ := hlicensed hissues
  exact ⟨certificate, hlicence.configured, hlicence.isFor, hlicence.imports imported himports⟩

/-- The publication uploads the material it has vetted. -/
theorem imports_are_vetted_publication :
    ∃ before e after, rightEvents publication.2.2 = before ++ e :: after ∧ ∃ imported certificate,
      e.op.imports = some imported ∧ Imports Sample.ctx production certificate imported before := by
  obtain ⟨before, e, after, hsplit, hsome⟩ := exists_performed (fun op => op.imports.isSome) (by decide +kernel)
  obtain ⟨imported, himports⟩ := Option.isSome_iff_exists.1 hsome
  obtain ⟨certificate, -, -, hvetted⟩ := imports_are_vetted (fun _ _ _ h => h.1) publication_exec hsplit himports
  exact ⟨before, e, after, hsplit, imported, certificate, himports, hvetted⟩

end OciAcmePublisher
