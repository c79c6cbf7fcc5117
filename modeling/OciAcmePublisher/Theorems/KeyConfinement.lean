import OciAcmePublisher.Effects.Twins
import OciAcmePublisher.PublicationService
import OciAcmePublisher.Simulation

/-!
# Confinement of the private key

Two runs of a publication on materials that differ in the private key alone. `conceal` blanks the key in the two operations that
carry it; operations that are equal once concealed are twins, and the publication performs nothing else in different form. A
server that answers twins identically therefore sees no difference, nor does anyone who reads the database, the log or the
arguments of the calls.
-/

namespace OciAcmePublisher

open Effects

/-- The operation with the private key of an imported version blanked. -/
def Op.conceal : Op → Op
  | .createImportedCertificate compartmentId name imported requestId =>
    .createImportedCertificate compartmentId name { imported with privateKeyPem := [] } requestId
  | .uploadPendingVersion certificateId etag imported requestId =>
    .uploadPendingVersion certificateId etag { imported with privateKeyPem := [] } requestId
  | op => op

theorem Op.reply_conceal (op : Op) : op.conceal.Reply = op.Reply := by
  cases op <;> rfl

/-- The private key of an imported version is ASCII text. -/
def Op.asciiKey : Op → Prop
  | .createImportedCertificate _ _ imported _ | .uploadPendingVersion _ _ imported _ => (decodeAscii imported.privateKeyPem).isSome
  | _ => True

/-- Two operations that differ at most in an ASCII private key. -/
def keyTwin : Twin publisher where
  rel op op' := op = op' ∨ (op.conceal = op'.conceal ∧ op.asciiKey ∧ op'.asciiKey)
  refl _ := Or.inl rfl
  reply {op op'} h := by
    rcases h with rfl | ⟨heq, -, -⟩
    · rfl
    · have hsame : op.conceal.Reply = op'.conceal.Reply := by rw [heq]
      rw [Op.reply_conceal, Op.reply_conceal] at hsame
      exact hsame

/-- The materials are the same but for the private key. -/
structure DifferInKey (material material' : LineageMaterial) : Prop where
  leaf : material.leaf = material'.leaf
  intermediates : material.intermediates = material'.intermediates
  leafPem : material.leafPem = material'.leafPem
  chainPem : material.chainPem = material'.chainPem

/-- The PEM text of the private key is ASCII. -/
def LineageMaterial.AsciiKey (material : LineageMaterial) : Prop := (decodeAscii material.privateKeyPem).isSome

/-- Local validation accepts the material at some instant. -/
def LineageMaterial.Accepted (Γ : Ctx) (config : AppConfig) (certificate : CertificateConfig) (material : LineageMaterial) :
    Prop :=
  ∃ now fingerprint,
    validateCertificateMaterial Γ material certificate config.compatibility config.global now = .ok fingerprint

/-! ## What runs -/

/-- The publication phase of `bootstrap`: from the validation of the loaded material to the result. -/
def bootstrapPublication (Γ : Ctx) (config : AppConfig) (certificate : CertificateConfig) (material : LineageMaterial) :
    Action BootstrapResult := do
  let now ← perform .now
  let fingerprint ← ofExcept
    (validateCertificateMaterial Γ material certificate config.compatibility config.global now)
  let chain ← buildChain Γ config certificate material
  PublicationService.openPorts config certificate
  let recovered ← PublicationService.recoverBootstrap Γ config certificate fingerprint
  match recovered with
  | some result => return result
  | none => PublicationService.createCertificate Γ config certificate material chain fingerprint

/-- `bootstrap` ends in its publication phase. -/
theorem bootstrap_eq (Γ : Ctx) (config : AppConfig) (certificateId : String) :
    PublicationService.bootstrap Γ config certificateId = (do
      let certificate ← ofExcept (configuredCertificate config certificateId)
      if certificate.oci.certificateOcid ≠ none then
        .raise (publicationServiceError "bootstrap requires certificate_ocid to be absent")
      else do
        PublicationService.requireProductionQualification config certificate
        PublicationService.runPreflight certificate
        logEvent .info "ACME_STARTED" [("certificate_id", .text certificate.id)]
        let _ ← NativeAcmeService.issue Γ config certificate false
        logEvent .info "ACME_COMPLETED" [("certificate_id", .text certificate.id)]
        let material ← perform (.loadLineage certificate.id)
        bootstrapPublication Γ config certificate material) := rfl

/-- A publication call. -/
inductive MaterialCall where
  | publish (chain : OciCertificateChain) (localFingerprint : String) (now : Instant) (operationType : OperationType)
  | bootstrap

/-- What a publication call performs on the material. -/
def MaterialCall.program (Γ : Ctx) (config : AppConfig) (certificate : CertificateConfig) (material : LineageMaterial) :
    MaterialCall → Action (PublicationResult ⊕ BootstrapResult)
  | .publish chain localFingerprint now operationType =>
    (PublicationReconciler.publish Γ config certificate material chain localFingerprint now operationType).bind
      fun result => .ret (.inl result)
  | .bootstrap => (bootstrapPublication Γ config certificate material).bind fun result => .ret (.inr result)

/-- What is left of the runs: the state store, the log and the calls with their keys blanked, beside the state of the server. -/
structure SeenRuns (σ : Type) where
  database : Database
  log : List (LogLevel × String × List (String × FieldValue))
  calls : List Op
  server : σ

/-- The server, the clock and the identifiers: an answer for every operation. -/
abbrev Server (σ : Type) := σ → (op : Op) → Except Exc op.Reply × σ

/-- A statement of the store that the server lets pass or makes fail. -/
def executed {σ : Type} (w : SeenRuns σ) (statement : Statement) (s : σ) :
    Except Exc statement.Reply → Except Exc statement.Reply × SeenRuns σ
  | .error x => (.error x, { w with server := s })
  | .ok _ =>
    match w.database.execute statement with
    | none => (.error (.of .sqliteError "constraint failed"), { w with server := s })
    | some (reply, database) => (.ok reply, { w with database := database, server := s })

/-- The answers in an observed world. -/
def observe {σ : Type} (answers : Server σ) : SeenRuns σ → (op : Op) → Except Exc op.Reply × SeenRuns σ
  | w, .sql statement =>
    executed w statement (answers w.server (.sql statement)).2 (answers w.server (.sql statement)).1
  | w, .logEvent level event fields =>
    ((answers w.server (.logEvent level event fields)).1,
      { w with log := w.log ++ [(level, event, fields)], server := (answers w.server (.logEvent level event fields)).2 })
  | w, op =>
    ((answers w.server op).1, { w with calls := w.calls ++ [op.conceal], server := (answers w.server op).2 })

/-- Calls one after the other, each cut after a number of operations: their outcomes and the world they leave. -/
def runCalls {σ : Type} (Γ : Ctx) (config : AppConfig) (certificate : CertificateConfig) (material : LineageMaterial)
    (answers : Server σ) : List (Nat × MaterialCall) → SeenRuns σ →
      List (Outcome Exc (PublicationResult ⊕ BootstrapResult)) × SeenRuns σ
  | [], w => ([], w)
  | (cut, call) :: rest, w =>
    let (outcome, w₁) := (call.program Γ config certificate material).evalFor (observe answers) cut w
    let (outcomes, w₂) := runCalls Γ config certificate material answers rest w₁
    (outcome :: outcomes, w₂)

namespace KeyConfinementAux

/-! ## The programs -/

section Programs

variable {Γ : Ctx} {config : AppConfig} {certificate : CertificateConfig} {material material' : LineageMaterial}

theorem alike_obtainCandidate (hdiffer : DifferInKey material material') (hkey : material.AsciiKey) (hkey' : material'.AsciiKey)
    (chain : OciCertificateChain) (localFingerprint : String) (now : Instant) (certificateId operationId requestId : String)
    (etag : Option String) :
    Alike keyTwin
      (PublicationReconciler.obtainCandidate Γ config certificate material chain localFingerprint now certificateId operationId
        requestId etag)
      (PublicationReconciler.obtainCandidate Γ config certificate material' chain localFingerprint now certificateId operationId
        requestId etag) := by
  apply Alike.bind (.refl _)
  intro candidate
  cases candidate with
  | some version => exact .refl _
  | none =>
    apply Alike.bind (.refl _)
    intro label
    apply Alike.paired
    · intro _
      exact .refl _
    · refine Or.inr ⟨?_, hkey, hkey'⟩
      simp only [Op.conceal, hdiffer.leafPem]

/-- `publish` performs twins on materials that differ in the key. -/
theorem alike_publish (hdiffer : DifferInKey material material') (hkey : material.AsciiKey) (hkey' : material'.AsciiKey)
    (chain : OciCertificateChain) (localFingerprint : String) (now : Instant) (operationType : OperationType) :
    Alike keyTwin (PublicationReconciler.publish Γ config certificate material chain localFingerprint now operationType)
      (PublicationReconciler.publish Γ config certificate material' chain localFingerprint now operationType) := by
  unfold PublicationReconciler.publish
  cases certificate.oci.certificateOcid with
  | none => exact .refl _
  | some certificateId =>
    apply Alike.bind (.refl _)
    intro operation
    unfold PublicationReconciler.reconcile
    apply Alike.bind (.refl _)
    intro requestId
    apply Alike.bind (.refl _)
    intro remote
    apply Alike.bind (.refl _)
    intro currentBundle
    apply Alike.bind (.refl _)
    intro currentFingerprint
    apply Alike.bind (.refl _)
    intro _
    by_cases hsame : currentFingerprint = localFingerprint
    · rw [if_pos hsame, if_pos hsame]
      exact .refl _
    · rw [if_neg hsame, if_neg hsame]
      apply Alike.bind (alike_obtainCandidate hdiffer hkey hkey' _ _ _ _ _ _ _)
      intro candidate
      exact .refl _

theorem alike_createCertificate (hdiffer : DifferInKey material material') (hkey : material.AsciiKey)
    (hkey' : material'.AsciiKey) (chain : OciCertificateChain) (fingerprint : String) :
    Alike keyTwin (PublicationService.createCertificate Γ config certificate material chain fingerprint)
      (PublicationService.createCertificate Γ config certificate material' chain fingerprint) := by
  apply Alike.bind (.refl _)
  intro operation
  apply Alike.bind (.refl _)
  intro _
  refine Alike.bind (Alike.attempt ?_) fun _ => .refl _
  apply Alike.bind (.refl _)
  intro requestId
  refine Alike.bind ?_ fun _ => .refl _
  apply Alike.bind (.refl _)
  intro now
  apply Alike.bind (.refl _)
  intro label
  apply Alike.call
  · intro r
    cases r with
    | ok ocid => exact .ret ocid
    | error x => exact .raise x
  · refine Or.inr ⟨?_, hkey, hkey'⟩
    simp only [Op.conceal, hdiffer.leafPem]

/-! ## Validation -/

/-- What acceptance says about the key: it belongs to the leaf and is small enough. -/
theorem accepted_key (h : material.Accepted Γ config certificate) :
    material.leaf.publicKey.spki = material.privateKey.publicKey.spki ∧ ¬5120 < material.privateKeyPem.length := by
  obtain ⟨now, fingerprint, hok⟩ := h
  unfold validateCertificateMaterial at hok
  obtain ⟨_, -, hok⟩ := bind_eq_ok_iff.1 hok
  obtain ⟨_, -, hok⟩ := bind_eq_ok_iff.1 hok
  obtain ⟨_, -, hok⟩ := bind_eq_ok_iff.1 hok
  obtain ⟨_, -, hok⟩ := bind_eq_ok_iff.1 hok
  obtain ⟨_, hspki, hok⟩ := bind_eq_ok_iff.1 hok
  obtain ⟨_, -, hok⟩ := bind_eq_ok_iff.1 hok
  obtain ⟨_, -, hok⟩ := bind_eq_ok_iff.1 hok
  obtain ⟨_, -, hok⟩ := bind_eq_ok_iff.1 hok
  obtain ⟨_, -, hok⟩ := bind_eq_ok_iff.1 hok
  obtain ⟨_, -, hok⟩ := bind_eq_ok_iff.1 hok
  obtain ⟨_, hsize, -⟩ := bind_eq_ok_iff.1 hok
  exact ⟨require_eq_ok_iff.1 hspki, fun hlong => require_eq_ok_iff.1 hsize (Or.inr hlong)⟩

/-- Accepted materials that differ in the key are validated to the same result at every instant. -/
theorem validate_same (hdiffer : DifferInKey material material') (haccepted : material.Accepted Γ config certificate)
    (haccepted' : material'.Accepted Γ config certificate) (now : Instant) :
    validateCertificateMaterial Γ material certificate config.compatibility config.global now =
      validateCertificateMaterial Γ material' certificate config.compatibility config.global now := by
  obtain ⟨hspki, hsize⟩ := accepted_key haccepted
  obtain ⟨hspki', hsize'⟩ := accepted_key haccepted'
  rw [hdiffer.leaf] at hspki
  have hown : ∀ x, require (material'.leaf.publicKey.spki = material.privateKey.publicKey.spki) x = .ok () :=
    fun x => require_eq_ok_iff.2 hspki
  have hown' : ∀ x, require (material'.leaf.publicKey.spki = material'.privateKey.publicKey.spki) x = .ok () :=
    fun x => require_eq_ok_iff.2 hspki'
  have hissuer : verifyIssuedByFirst Γ material = verifyIssuedByFirst Γ material' := by
    unfold verifyIssuedByFirst
    rw [hdiffer.intermediates, hdiffer.leaf]
  unfold validateCertificateMaterial
  simp only [hown, hown', hissuer, hsize, hsize', or_false, hdiffer.leaf, hdiffer.leafPem, hdiffer.chainPem]

theorem alike_bootstrapPublication (hdiffer : DifferInKey material material') (hkey : material.AsciiKey)
    (hkey' : material'.AsciiKey) (haccepted : material.Accepted Γ config certificate)
    (haccepted' : material'.Accepted Γ config certificate) :
    Alike keyTwin (bootstrapPublication Γ config certificate material) (bootstrapPublication Γ config certificate material') := by
  have hchain : buildChain Γ config certificate material = buildChain Γ config certificate material' := by
    unfold buildChain buildOciChain
    rw [hdiffer.intermediates, hdiffer.leaf, hdiffer.leafPem]
  unfold bootstrapPublication
  rw [hchain]
  apply Alike.bind (.refl _)
  intro now
  rw [validate_same hdiffer haccepted haccepted']
  apply Alike.bind (.refl _)
  intro fingerprint
  apply Alike.bind (.refl _)
  intro chain
  apply Alike.bind (.refl _)
  intro _
  apply Alike.bind (.refl _)
  intro recovered
  cases recovered with
  | some result => exact .refl _
  | none => exact alike_createCertificate hdiffer hkey hkey' chain fingerprint

theorem alike_call (hdiffer : DifferInKey material material') (hkey : material.AsciiKey) (hkey' : material'.AsciiKey)
    (haccepted : material.Accepted Γ config certificate) (haccepted' : material'.Accepted Γ config certificate)
    (call : MaterialCall) :
    Alike keyTwin (call.program Γ config certificate material) (call.program Γ config certificate material') := by
  cases call with
  | publish chain localFingerprint now operationType =>
    exact Alike.bind (alike_publish hdiffer hkey hkey' chain localFingerprint now operationType) fun _ => .refl _
  | bootstrap =>
    exact Alike.bind (alike_bootstrapPublication hdiffer hkey hkey' haccepted haccepted') fun _ => .refl _

end Programs

/-! ## The worlds -/

/-- The observed worlds are the same but for their servers, which are in states that agree. -/
structure SameView {σ σ' : Type} (agree : σ → σ' → Prop) (w : SeenRuns σ) (w' : SeenRuns σ') : Prop where
  database : w.database = w'.database
  log : w.log = w'.log
  calls : w.calls = w'.calls
  server : agree w.server w'.server

/-- The operation imports a version. -/
def carriesKey : Op → Bool
  | .createImportedCertificate .. | .uploadPendingVersion .. => true
  | _ => false

theorem conceal_plain {op : Op} (h : carriesKey op = false) : op.conceal = op := by
  cases op <;> first | rfl | cases h

theorem carriesKey_conceal (op : Op) : carriesKey op.conceal = carriesKey op := by
  cases op <;> rfl

/-- The operation is a statement of the store or an event of the log. -/
def isLocal : Op → Bool
  | .sql _ | .logEvent .. => true
  | _ => false

theorem not_local_of_carries {op : Op} (h : carriesKey op = true) : isLocal op = false := by
  cases op <;> first | rfl | cases h

theorem observe_call {σ : Type} (answers : Server σ) (w : SeenRuns σ) {op : Op} (h : isLocal op = false) :
    observe answers w op =
      ((answers w.server op).1, { w with calls := w.calls ++ [op.conceal], server := (answers w.server op).2 }) := by
  cases op <;> first | rfl | cases h

/-- Twins are equal, or they both import a version. -/
theorem twin_cases {op op' : Op} (t : keyTwin.rel op op') :
    op = op' ∨ (op.conceal = op'.conceal ∧ isLocal op = false ∧ isLocal op' = false) := by
  rcases t with heq | ⟨heq, -, -⟩
  · exact Or.inl heq
  · cases hop : carriesKey op with
    | true =>
      have hop' : carriesKey op' = true := by rw [← carriesKey_conceal, ← heq, carriesKey_conceal, hop]
      exact Or.inr ⟨heq, not_local_of_carries hop, not_local_of_carries hop'⟩
    | false =>
      have hop' : carriesKey op' = false := by rw [← carriesKey_conceal, ← heq, carriesKey_conceal, hop]
      rw [conceal_plain hop, conceal_plain hop'] at heq
      exact Or.inl heq

theorem executed_same {σ σ' : Type} {agree : σ → σ' → Prop} {w : SeenRuns σ} {w' : SeenRuns σ'} (hw : SameView agree w w')
    (statement : Statement) {s : σ} {s' : σ'} (hs : agree s s') {r r' : Except Exc statement.Reply} (hr : r = r') :
    (executed w statement s r).1 = (executed w' statement s' r').1 ∧
      SameView agree (executed w statement s r).2 (executed w' statement s' r').2 := by
  subst hr
  unfold executed
  cases r with
  | error x => exact ⟨rfl, hw.database, hw.log, hw.calls, hs⟩
  | ok _ =>
    simp only
    rw [← hw.database]
    cases w.database.execute statement with
    | none => exact ⟨rfl, rfl, hw.log, hw.calls, hs⟩
    | some result => exact ⟨rfl, rfl, hw.log, hw.calls, hs⟩

/-- Servers that answer twins identically keep the view the same. -/
theorem observe_alike {σ σ' : Type} {agree : σ → σ' → Prop} {answers : Server σ} {answers' : Server σ'}
    (h : AnswerAlike keyTwin agree answers answers') :
    AnswerAlike keyTwin (SameView agree) (observe answers) (observe answers') := by
  intro w w' op op' t hw
  obtain ⟨hreply, hagree⟩ := h w.server w'.server op op' t hw.server
  have hcall : op.conceal = op'.conceal → isLocal op = false → isLocal op' = false →
      keyTwin.cast t (observe answers w op).1 = (observe answers' w' op').1 ∧
        SameView agree (observe answers w op).2 (observe answers' w' op').2 := by
    intro heq hop hop'
    rw [observe_call answers w hop, observe_call answers' w' hop']
    refine ⟨hreply, hw.database, hw.log, ?_, hagree⟩
    show w.calls ++ [op.conceal] = w'.calls ++ [op'.conceal]
    rw [hw.calls, heq]
  rcases twin_cases t with rfl | ⟨heq, hop, hop'⟩
  · cases hlocal : isLocal op with
    | false => exact hcall rfl hlocal hlocal
    | true =>
      rw [Twin.cast_self] at hreply ⊢
      cases op <;> try cases hlocal
      · rename_i statement
        exact executed_same hw statement hagree hreply
      · rename_i level event fields
        refine ⟨hreply, hw.database, ?_, hw.calls, hagree⟩
        show w.log ++ [(level, event, fields)] = w'.log ++ [(level, event, fields)]
        rw [hw.log]
  · exact hcall heq hop hop'

/-! ## A sample -/

/-- Twins are equal, or both create a certificate, or both upload a version. -/
theorem twin_imports {op op' : Op} (t : keyTwin.rel op op') :
    op = op' ∨
      (∃ a b i r a' b' i' r', op = .createImportedCertificate a b i r ∧ op' = .createImportedCertificate a' b' i' r') ∨
      (∃ a b i r a' b' i' r', op = .uploadPendingVersion a b i r ∧ op' = .uploadPendingVersion a' b' i' r') := by
  rcases t with heq | ⟨heq, -, -⟩
  · exact Or.inl heq
  · cases hop : carriesKey op with
    | false =>
      have hop' : carriesKey op' = false := by rw [← carriesKey_conceal, ← heq, carriesKey_conceal, hop]
      rw [conceal_plain hop, conceal_plain hop'] at heq
      exact Or.inl heq
    | true =>
      have hop' : carriesKey op' = true := by rw [← carriesKey_conceal, ← heq, carriesKey_conceal, hop]
      cases op <;> try cases hop
      · cases op' <;> try cases hop'
        · exact Or.inr (Or.inl ⟨_, _, _, _, _, _, _, _, rfl, rfl⟩)
        · cases heq
      · cases op' <;> try cases hop'
        · cases heq
        · exact Or.inr (Or.inr ⟨_, _, _, _, _, _, _, _, rfl, rfl⟩)

/-- A server without state: the certificate has the version `A`, takes every upload and lists nothing. -/
def quiet : Server Unit
  | s, .getCertificate .. => (.ok ⟨"ocid", none, some 1⟩, s)
  | s, .getPublicBundle .. => (.ok ⟨"A", "IR", 1, none, []⟩, s)
  | s, .listVersions .. => (.ok [], s)
  | s, .uploadPendingVersion .. => (.ok (), s)
  | s, .createImportedCertificate .. => (.ok "ocid", s)
  | s, .uuid4 => (.ok "id", s)
  | s, .now => (.ok (days 1), s)
  | s, .logEvent .. => (.ok (), s)
  | s, .sql (.insertOperation _) => (.ok (), s)
  | s, .sql (.updateOperation ..) => (.ok 1, s)
  | s, _ => (.error (.of .osError "no network"), s)

theorem quiet_alike : AnswerAlike keyTwin (fun _ _ => True) quiet quiet := by
  intro s s' op op' t _
  refine ⟨?_, trivial⟩
  rcases twin_imports t with rfl | ⟨_, _, _, _, _, _, _, _, rfl, rfl⟩ | ⟨_, _, _, _, _, _, _, _, rfl, rfl⟩
  · rfl
  · rfl
  · rfl

/-- The sample material with another key. -/
def otherMaterial : LineageMaterial := { Sample.material with privateKeyPem := [76] }

def observedNothing : SeenRuns Unit := ⟨{}, [], [], ()⟩

/-- One publication of the sample chain. -/
def uploading : List (Nat × MaterialCall) :=
  [(100, .publish Sample.chain (certificateSha256 (Sample.leaf 2)) (days 1) .publish)]

end KeyConfinementAux

open KeyConfinementAux

/-- Calls of `publish` and of the publication phase of `bootstrap`, each cut anywhere or not at all, on two accepted materials that
differ in an ASCII private key, against servers that answer identically: the outcomes are the same, and so are the state store,
the log and the arguments of every call but the private key of an imported version. -/
theorem private_key_confined (Γ : Ctx) (config : AppConfig) (certificate : CertificateConfig)
    (material material' : LineageMaterial) (hdiffer : DifferInKey material material') (hkey : material.AsciiKey)
    (hkey' : material'.AsciiKey) (haccepted : material.Accepted Γ config certificate)
    (haccepted' : material'.Accepted Γ config certificate) {σ σ' : Type} (agree : σ → σ' → Prop) (answers : Server σ)
    (answers' : Server σ') (hanswers : AnswerAlike keyTwin agree answers answers') (calls : List (Nat × MaterialCall))
    (w : SeenRuns σ) (w' : SeenRuns σ') (hw : SameView agree w w') :
    let run := runCalls Γ config certificate material answers calls w
    let run' := runCalls Γ config certificate material' answers' calls w'
    run.1 = run'.1 ∧ run.2.database = run'.2.database ∧ run.2.log = run'.2.log ∧ run.2.calls = run'.2.calls := by
  have hrun : (runCalls Γ config certificate material answers calls w).1 =
        (runCalls Γ config certificate material' answers' calls w').1 ∧
      SameView agree (runCalls Γ config certificate material answers calls w).2
        (runCalls Γ config certificate material' answers' calls w').2 := by
    induction calls generalizing w w' with
    | nil => exact ⟨rfl, hw⟩
    | cons entry rest ih =>
      obtain ⟨cut, call⟩ := entry
      have hcall := alike_call (Γ := Γ) hdiffer hkey hkey' haccepted haccepted' call
      obtain ⟨houtcome, hview⟩ := hcall.evalFor (observe_alike hanswers) cut hw
      obtain ⟨hrest, hend⟩ := ih _ _ hview
      exact ⟨List.cons_eq_cons.2 ⟨houtcome, hrest⟩, hend⟩
  exact ⟨hrun.1, hrun.2.database, hrun.2.log, hrun.2.calls⟩

/-- Two runs that upload a version with the one or the other key. -/
theorem private_key_confined_sample :
    (runCalls Sample.ctx (Sample.config Sample.certificate) Sample.certificate Sample.material quiet uploading observedNothing).1 =
        (runCalls Sample.ctx (Sample.config Sample.certificate) Sample.certificate otherMaterial quiet uploading
          observedNothing).1 ∧
      (runCalls Sample.ctx (Sample.config Sample.certificate) Sample.certificate Sample.material quiet uploading
        observedNothing).2.calls.length = 10 := by
  have haccepted : Sample.material.Accepted Sample.ctx (Sample.config Sample.certificate) Sample.certificate :=
    ⟨days 1, certificateSha256 (Sample.leaf 2), by decide +kernel⟩
  have haccepted' : otherMaterial.Accepted Sample.ctx (Sample.config Sample.certificate) Sample.certificate :=
    ⟨days 1, certificateSha256 (Sample.leaf 2), by decide +kernel⟩
  have hkey : Sample.material.AsciiKey := by
    show (decodeAscii [75]).isSome = true
    decide
  have hkey' : otherMaterial.AsciiKey := by
    show (decodeAscii [76]).isSome = true
    decide
  have hview : SameView (fun _ _ : Unit => True) observedNothing observedNothing := ⟨rfl, rfl, rfl, trivial⟩
  have hconfined := private_key_confined Sample.ctx (Sample.config Sample.certificate) Sample.certificate Sample.material
    otherMaterial ⟨rfl, rfl, rfl, rfl⟩ hkey hkey' haccepted haccepted' (fun _ _ => True) quiet
    quiet quiet_alike uploading observedNothing observedNothing hview
  exact ⟨hconfined.1, by decide +kernel⟩

end OciAcmePublisher
