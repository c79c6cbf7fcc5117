import Mathlib.Data.List.Sort
import OciAcmePublisher.OciService

/-!
# A service that can be run

One deterministic answer for every operation of the publisher, allowed by the service: a program can be run on it, and what it
computes is a run of the program against the service. What lies outside the OCI service, the state database and the lineages is
scripted.
-/

namespace OciAcmePublisher

open Effects Tables

/-! ## The database -/

/-- The row that completed last. -/
def latestCompleted : List OperationRow → Option OperationRow
  | [] => none
  | row :: rest =>
    match latestCompleted rest with
    | none => some row
    | some best => if completedBefore best row then some row else some best

/-- The order of `ORDER BY started_at ASC`. -/
def startedBefore (a b : OperationRow) : Prop := a.startedAt ≤ b.startedAt

instance : DecidableRel startedBefore := fun a b => inferInstanceAs (Decidable (a.startedAt ≤ b.startedAt))

instance : Std.Total startedBefore := ⟨fun a b => le_total a.startedAt b.startedAt⟩

instance : IsTrans OperationRow startedBefore := ⟨fun _ _ _ hab hbc => le_trans hab hbc⟩

/-- Execute a statement; none where it violates a key. -/
def Database.execute (db : Database) : (s : Statement) → Option (s.Reply × Database)
  | .insertOperation row => (db.operations.insert row).map fun t => ((), { db with operations := t })
  | .updateOperation operationId t =>
    some (db.operations.countWhere (fun r => r.operationId = operationId),
      db.updateOperations (fun r => r.operationId = operationId) (fun r => r.transition t)
        (OperationRow.transition_operationId t))
  | .completeReconciled certificateId localFingerprint currentVersion excluding now =>
    some (db.operations.countWhere (OperationRow.closedBy certificateId localFingerprint excluding),
      db.updateOperations (OperationRow.closedBy certificateId localFingerprint excluding)
        (fun r => r.complete currentVersion now) (OperationRow.complete_operationId currentVersion now))
  | .completeInterruptedAudits certificateId excluding now =>
    some (db.operations.countWhere (OperationRow.staleAudit certificateId excluding),
      db.updateOperations (OperationRow.staleAudit certificateId excluding) (fun r => r.completeAudit now)
        (OperationRow.completeAudit_operationId now))
  | .selectActive certificateId =>
    some (((db.activeRows certificateId).insertionSort startedBefore).map OperationRow.toOperation, db)
  | .selectConfirmedOcid certificateId =>
    some ((latestCompleted (db.confirmedRows certificateId)).bind OperationRow.ociCertificateOcid, db)
  | .upsertFacts certificateId update now =>
    some ((), { db with certificateStates := db.factsUpdated certificateId update now })
  | .selectAlert dedupKey =>
    some ((db.alerts.rows.find? (·.dedupKey = dedupKey)).map fun r => (r.lastSentAt, r.lastStatus), db)
  | .upsertAlert row => some ((), { db with alerts := db.alertsUpdated row })

theorem completedBefore_trans {a b c : OperationRow} (hab : completedBefore a b = true)
    (hbc : completedBefore b c = true) : completedBefore a c = true := by
  unfold completedBefore at hab hbc ⊢
  cases ha : a.completedAt <;> cases hb : b.completedAt <;> cases hc : c.completedAt <;> simp_all
  exact le_trans hab hbc

theorem completedBefore_total (a b : OperationRow) : completedBefore a b = true ∨ completedBefore b a = true := by
  unfold completedBefore
  cases a.completedAt <;> cases b.completedAt <;> simp
  exact le_total _ _

theorem latestCompleted_eq_none {l : List OperationRow} (h : latestCompleted l = none) : l = [] := by
  cases l with
  | nil => rfl
  | cons row rest =>
    unfold latestCompleted at h
    split at h
    · cases h
    · split at h <;> cases h

/-- It is a row of the list, and every other one completed before. -/
theorem latestCompleted_eq_some {l : List OperationRow} {row : OperationRow} (h : latestCompleted l = some row) :
    row ∈ l ∧ ∀ r ∈ l, completedBefore r row = true := by
  induction l generalizing row with
  | nil => cases h
  | cons first rest ih =>
    have hself : completedBefore first first = true := by simpa using completedBefore_total first first
    unfold latestCompleted at h
    split at h
    · rename_i hnone
      cases h
      rw [latestCompleted_eq_none hnone]
      simpa using hself
    · rename_i best hbest
      obtain ⟨hmem, hall⟩ := ih hbest
      split at h
      · rename_i hb
        cases h
        refine ⟨List.mem_cons_self, fun r hr => ?_⟩
        rcases List.mem_cons.1 hr with rfl | hr
        · exact hself
        · exact completedBefore_trans (hall r hr) hb
      · rename_i hb
        cases h
        refine ⟨List.mem_cons_of_mem _ hmem, fun r hr => ?_⟩
        rcases List.mem_cons.1 hr with rfl | hr
        · exact (completedBefore_total _ _).resolve_right hb
        · exact hall r hr

/-- What is executed is a step of the database. -/
theorem Database.execute_step {db db' : Database} {s : Statement} {reply : s.Reply}
    (h : db.execute s = some (reply, db')) : db.Step s reply db' := by
  cases s with
  | insertOperation row =>
    obtain ⟨t, ht, heq⟩ := Option.map_eq_some_iff.1 h
    cases heq
    exact ⟨t, ht, rfl⟩
  | selectActive certificateId =>
    cases h
    exact ⟨rfl, _, List.perm_insertionSort _ _, List.pairwise_insertionSort startedBefore _, rfl⟩
  | selectConfirmedOcid certificateId =>
    cases h
    refine ⟨rfl, ?_⟩
    cases hl : latestCompleted (db.confirmedRows certificateId) with
    | none => exact Or.inl ⟨rfl, latestCompleted_eq_none hl⟩
    | some row =>
      obtain ⟨hmem, hall⟩ := latestCompleted_eq_some hl
      exact Or.inr ⟨row, hmem, hall, rfl⟩
  | updateOperation | completeReconciled | completeInterruptedAudits | selectAlert =>
    cases h
    exact ⟨rfl, rfl⟩
  | upsertFacts | upsertAlert =>
    cases h
    rfl

/-! ## The service -/

/-- What the simulation answers besides: the clock, the files, the evidence, new keys and the ACME server. -/
structure Script where
  now : Instant
  file : String → Option Bytes
  evidence : String → Option Evidence
  key : PrivateKey
  order : Order
  finalized : FinalizedOrder

namespace World

/-- A new version with the imported files. -/
def imported (number : Int) (i : ImportedVersion) : Option Version :=
  match decodeAscii i.certificatePem, decodeAscii i.certChainPem, decodeAscii i.privateKeyPem with
  | some certificatePem, some certChainPem, some _ =>
    some {
      number := number
      certificatePem := certificatePem
      certChainPem := certChainPem
      name := some i.versionName
      stages := []
      timeCreated := none
      timeOfDeletion := none }
  | _, _, _ => none

theorem imported_holds {number : Int} {i : ImportedVersion} {v : Version} (h : imported number i = some v) :
    v.holds i := by
  unfold imported at h
  split at h
  · rename_i hcert hchain hkey
    cases h
    exact ⟨hcert, hchain, by rw [hkey]; rfl, rfl⟩
  · cases h

/-- A number above those of the versions. -/
def nextNumber (r : Resource) : Int := r.versions.rows.foldl (fun n v => max n v.number) 0 + 1

/-- The reply of an operation that takes effect and the world it leaves; none where it cannot take effect. -/
def execute (Γ : Ctx) (s : Script) (w : World) : (op : Op) → Option (op.Reply × World)
  | .getCertificate ocid _ => do
    let r ← w.certificates ocid
    return ({ certificateId := ocid, etag := none, currentVersionNumber := some r.current }, w)
  | .listVersions ocid _ => do
    let r ← w.certificates ocid
    return (r.versions.rows.map r.shown, w)
  | .getVersion ocid number _ => do
    let r ← w.certificates ocid
    let v ← r.versions.rows.find? (·.number = number)
    return (r.shown v, w)
  | .getPublicBundle ocid number _ => do
    let r ← w.certificates ocid
    let v ← r.versions.rows.find? (·.number = number.getD r.current)
    return (r.bundle v, w)
  | .createImportedCertificate _ name i _ =>
    if w.certificates (name ++ i.versionName) = none then do
      let v ← imported 1 i
      return (name ++ i.versionName, w.mutate (name ++ i.versionName) (.created v) (.created (name ++ i.versionName)))
    else none
  | .uploadPendingVersion ocid _ i _ => do
    let r ← w.certificates ocid
    let v ← imported (nextNumber r) i
    let r' ← r.upload v
    return ((), w.mutate ocid r' (.uploaded ocid v.number))
  | .promoteCurrent ocid number _ _ => do
    let r ← w.certificates ocid
    let r' ← r.promote number
    return ((), w.mutate ocid r' (.promoted ocid number))
  | .scheduleVersionDeletion ocid number time _ _ => do
    let r ← w.certificates ocid
    return ((), w.mutate ocid (r.scheduleDeletion number time) (.deletionScheduled ocid number))
  | .sql statement => do
    let (reply, db) ← w.database.execute statement
    return (reply, { w with database := db })
  | .lineageExists id => some ((w.lineages id).isSome, w)
  | .loadLineage id => (w.lineages id).map fun material => (material, w)
  | .commitLineage id g =>
    (parseMaterial Γ g.leafPem g.chainPem g.privateKeyPem).map fun material =>
      (material, { w with lineages := Function.update w.lineages id (some material) })
  | .createAdapters _ | .openStore _ | .sleep _ | .logEvent .. | .preflight .. | .acmeClient | .writeChallenge ..
  | .removeChallenge _ | .answerChallenge .. | .pollAuthorizations .. => some ((), w)
  | .now => some (s.now, w)
  | .uniform _ => some (0, w)
  | .uuid4 => some (String.ofList (List.replicate (w.database.operations.rows.length + 1) 'a'), w)
  | .tokenHex size => some (String.ofList (List.replicate (2 * size) '0'), w)
  | .readFile path => (s.file path).map fun content => (content, w)
  | .readEvidence path => (s.evidence path).map fun evidence => (evidence, w)
  | .generateKey _ => some (s.key, w)
  | .newOrder .. => some (s.order, w)
  | .finalizeOrder .. => some (s.finalized, w)
  | .post .. => some (200, w)
  | .resolve _ | .wait _ | .probe .. | .monotonic => none

end World

/-- The simulated service. -/
def simulate (Γ : Ctx) (s : Script) : Handler publisher Exc World := fun w op =>
  if op.observes then some (w.network w.observed op, { w with observed := w.observed + 1 })
  else (w.execute Γ s op).map fun (reply, w') => (.ok reply, w')

theorem World.execute_step {Γ : Ctx} {s : Script} {w w' : World} {op : Op} {reply : op.Reply}
    (h : w.execute Γ s op = some (reply, w')) : w.Step Γ op reply w' := by
  cases op with
  | getCertificate ocid _ =>
    obtain ⟨r, hr, hret⟩ := Option.bind_eq_some_iff.1 h
    cases hret
    exact ⟨rfl, r, hr, rfl, rfl⟩
  | listVersions ocid _ =>
    obtain ⟨r, hr, hret⟩ := Option.bind_eq_some_iff.1 h
    cases hret
    exact ⟨rfl, r, hr, List.Perm.refl _⟩
  | getVersion ocid number _ =>
    obtain ⟨r, hr, h⟩ := Option.bind_eq_some_iff.1 h
    obtain ⟨v, hv, hret⟩ := Option.bind_eq_some_iff.1 h
    cases hret
    exact ⟨rfl, r, hr, v, List.mem_of_find?_eq_some hv, by simpa using List.find?_some hv, rfl⟩
  | getPublicBundle ocid number _ =>
    obtain ⟨r, hr, h⟩ := Option.bind_eq_some_iff.1 h
    obtain ⟨v, hv, hret⟩ := Option.bind_eq_some_iff.1 h
    cases hret
    exact ⟨rfl, r, hr, v, List.mem_of_find?_eq_some hv, by simpa using List.find?_some hv, rfl⟩
  | createImportedCertificate _ name i _ =>
    simp only [execute] at h
    split at h
    · rename_i hnone
      obtain ⟨v, hv, hret⟩ := Option.bind_eq_some_iff.1 h
      cases hret
      exact ⟨hnone, v, imported_holds hv, rfl⟩
    · cases h
  | uploadPendingVersion ocid _ i _ =>
    obtain ⟨r, hr, h⟩ := Option.bind_eq_some_iff.1 h
    obtain ⟨v, hv, h⟩ := Option.bind_eq_some_iff.1 h
    obtain ⟨r', hr', hret⟩ := Option.bind_eq_some_iff.1 h
    cases hret
    exact ⟨r, r', v, hr, imported_holds hv, hr', rfl⟩
  | promoteCurrent ocid number _ _ =>
    obtain ⟨r, hr, h⟩ := Option.bind_eq_some_iff.1 h
    obtain ⟨r', hr', hret⟩ := Option.bind_eq_some_iff.1 h
    cases hret
    exact ⟨r, r', hr, hr', rfl⟩
  | scheduleVersionDeletion ocid number time _ _ =>
    obtain ⟨r, hr, hret⟩ := Option.bind_eq_some_iff.1 h
    cases hret
    exact ⟨r, hr, rfl⟩
  | sql statement =>
    obtain ⟨⟨reply, db⟩, hdb, hret⟩ := Option.bind_eq_some_iff.1 h
    cases hret
    exact ⟨db, Database.execute_step hdb, rfl⟩
  | loadLineage id =>
    obtain ⟨material, hm, hret⟩ := Option.map_eq_some_iff.1 h
    cases hret
    exact ⟨rfl, hm⟩
  | commitLineage id g =>
    obtain ⟨material, hm, hret⟩ := Option.map_eq_some_iff.1 h
    cases hret
    exact ⟨hm, rfl⟩
  | readFile path | readEvidence path =>
    obtain ⟨found, -, hret⟩ := Option.map_eq_some_iff.1 h
    cases hret
    rfl
  | lineageExists id =>
    cases h
    exact ⟨rfl, rfl⟩
  | resolve | wait | probe | monotonic => cases h
  | createAdapters | openStore | sleep | logEvent | preflight | acmeClient | writeChallenge | removeChallenge
  | answerChallenge | pollAuthorizations | now | uniform | uuid4 | tokenHex | generateKey | newOrder | finalizeOrder
  | post =>
    cases h
    rfl

/-- The service allows the simulation, whatever else may fail. -/
theorem simulate_allowed (Γ : Ctx) (s : Script) (faults : Faults) : (simulate Γ s).Allowed (service Γ faults) := by
  intro w op answer w' h
  unfold simulate at h
  unfold service
  split
  · rename_i ho
    rw [if_pos ho] at h
    cases h
    exact ⟨rfl, rfl⟩
  · rename_i ho
    rw [if_neg ho] at h
    obtain ⟨⟨reply, w₁⟩, hx, heq⟩ := Option.map_eq_some_iff.1 h
    cases heq
    exact World.execute_step hx

/-- The simulation, where the operations that pass the test raise `x` before they take effect. -/
def simulateFailing (Γ : Ctx) (s : Script) (test : Op → Bool) (x : Exc) : Handler publisher Exc World := fun w op =>
  if test op && !op.observes then some (.error x, w) else simulate Γ s w op

theorem simulateFailing_allowed (Γ : Ctx) (s : Script) {faults : Faults} {test : Op → Bool} {x : Exc}
    (hf : ∀ op, test op = true → faults op x) : (simulateFailing Γ s test x).Allowed (service Γ faults) := by
  intro w op answer w' h
  unfold simulateFailing at h
  split at h
  · rename_i ht
    rw [Bool.and_eq_true, Bool.not_eq_true'] at ht
    cases h
    unfold service
    rw [if_neg (by simp [ht.2])]
    exact ⟨hf op ht.1, Or.inl rfl⟩
  · exact simulate_allowed Γ s faults w op answer w' h

/-! ## A sample certificate

The PEM of a certificate is one letter: `A`, `B` leaves, `I` their issuer, `R` the root. -/

namespace Sample

instance neZero_ten : @NeZero Nat Zero.ofOfNat0 10 := ⟨by decide⟩

/-- The fingerprint that repeats one hexadecimal digit. -/
def fingerprint (digit : Fin 10) : Sha256Hex where
  text := String.ofList (List.replicate 64 (Char.ofNat (48 + digit)))
  valid := by
    have hdigit : "0123456789abcdef".toList.contains (Char.ofNat (48 + digit)) = true := by
      revert digit
      decide +kernel
    unfold isSha256Hex
    simp only [String.length_ofList, String.toList_ofList, List.length_replicate, List.all_replicate, hdigit]
    rfl

/-- A leaf for `a.example` issued by `R3`, valid for ninety days times its digit. -/
def leaf (digit : Fin 10) : X509 where
  subject := "CN=a.example"
  issuer := "CN=R3"
  commonNames := [some "a.example"]
  countries := []
  subjectAltNames := some [.dns "a.example"]
  basicConstraintsCa := some false
  extendedKeyUsage := some ["serverAuth"]
  digitalSignature := some true
  notValidBefore := 0
  notValidAfter := days (90 * digit)
  publicKey := .rsa 2048 "key"
  signatureHash := some "sha256"
  fingerprint := fingerprint digit

/-- A certificate authority. -/
def authority (digit : Fin 10) (name issuer : String) : X509 where
  subject := "CN=" ++ name
  issuer := "CN=" ++ issuer
  commonNames := [some name]
  countries := []
  subjectAltNames := none
  basicConstraintsCa := some true
  extendedKeyUsage := none
  digitalSignature := none
  notValidBefore := 0
  notValidAfter := days 3650
  publicKey := .rsa 4096 name
  signatureHash := some "sha256"
  fingerprint := fingerprint digit

def root : X509 := authority 8 "Root" "Root"

def issuer : X509 := authority 9 "R3" "Root"

/-- The certificate with a one-letter PEM. -/
def parse : UInt8 → Option X509
  | 65 => some (leaf 1)
  | 66 => some (leaf 2)
  | 73 => some issuer
  | 82 => some root
  | _ => none

def privateKey : PrivateKey := ⟨"secret", .rsa 2048 "key"⟩

def ctx : Ctx where
  loadPem
    | [b] => parse b
    | _ => none
  loadPemAll raw := raw.mapM parse
  toPem certificate :=
    if certificate = leaf 1 then [65] else if certificate = leaf 2 then [66]
    else if certificate = issuer then [73] else [82]
  verifies _ _ := true
  loadPrivateKey _ := some privateKey
  privateKeyPem _ := [75]
  csr _ _ _ := []
  idnaEncode := some
  isIpAddress _ := false
  isGlobal _ := true
  lower := id
  compactTimestamp _ := "19700102T000000Z"
  parseUrl _ := some ⟨"https", some "hooks.example", none, none⟩

def certificate : CertificateConfig where
  id := "web"
  webrootId := "web"
  commonName := "a.example"
  domains := ["a.example"]
  key := .rsa 2048
  chain := {
    rootPemPath := "/root.pem"
    allowedRootSha256 := [certificateSha256 root]
    allowedIssuerCommonNames := ["R3"] }
  oci := {
    region := "region"
    compartmentOcid := "compartment"
    certificateOcid := some "ocid"
    certificateName := "web" }
  retention := { RetentionConfig.standard with enabled := false }

/-- A retention that keeps one DEPRECATED version. -/
def keepingOne : RetentionConfig := { RetentionConfig.standard with keepDeprecatedVersions := 1, keep_bounds := by decide }

/-- A staging configuration of one certificate. -/
def config (certificate : CertificateConfig) : AppConfig where
  global := { environment := .staging, stateDir := "/state" }
  compatibility := { enforceDocumentedSubjectCountry := false }
  acme := {
    email := "mail"
    agreeToTerms := true
    directoryUrl := "url"
    accountKeyPath := "/key"
    certificatesDir := "/certificates" }
  http01 := { webrootBase := "/webroot" }
  certificates := [certificate]

/-- The local generation whose leaf is `B`. -/
def material : LineageMaterial where
  leaf := leaf 2
  intermediates := [issuer]
  privateKey := privateKey
  leafPem := [66]
  chainPem := [73]
  privateKeyPem := [75]

def chain : OciCertificateChain where
  root := root
  intermediates := [issuer]
  certChainPem := [73, 82]

/-- A version with a one-letter PEM. -/
def version (number : Int) (pem : String) (stages : List Stage) : Version where
  number := number
  certificatePem := pem
  certChainPem := "IR"
  name := none
  stages := stages
  timeCreated := none
  timeOfDeletion := none

/-- The certificate whose only version is `A`. -/
def resource : Resource := .created (version 1 "A" [])

/-- A world that holds one OCI certificate and the local generation. -/
def world (r : Resource) : World where
  certificates ocid := if ocid = "ocid" then some r else none
  mutations := []
  database := {}
  lineages id := if id = "web" then some material else none
  network _ _ := .error (.of .osError "no network")
  observed := 0

/-- A quiet outside at the end of the first day. -/
def script : Script where
  now := days 1
  file path := if path = "/root.pem" then some [82] else none
  evidence _ := none
  key := privateKey
  order := ⟨"order", []⟩
  finalized := ⟨"", []⟩

/-- The same context, with one address. -/
def addressed : Ctx := { ctx with isIpAddress := fun address => address = "192.0.2.1" }

/-- An outside where every endpoint has one address that presents `f`, and no time passes. -/
def presenting (f : String) : Network := fun _ op =>
  match op with
  | .resolve _ => .ok ["192.0.2.1"]
  | .probe .. => .ok f
  | .monotonic => .ok 0
  | _ => .error (.of .osError "no network")

/-- One audited endpoint. -/
def endpoints : List AuditEndpoint := [{ hostname := "a.example", port := 443 }]

end Sample

end OciAcmePublisher
