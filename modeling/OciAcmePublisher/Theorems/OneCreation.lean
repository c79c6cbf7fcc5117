import OciAcmePublisher.Lemmas.Creations
import OciAcmePublisher.Simulation

/-!
# One OCI certificate for a set

A bootstrap that was cut after it had created its OCI certificate is finished by the next one, which finds the OCID in the row of
the interrupted operation. What is not recorded there, and what a failure after the creation has closed, is not found: the next
bootstrap creates another OCI certificate.
-/

namespace OciAcmePublisher

open Effects Tables

namespace OneCreation

variable {Γ : Ctx} {faults : Faults} {config : AppConfig} {certificate : CertificateConfig} {material : LineageMaterial}
  {chain : OciCertificateChain} {id F operationId : String} {α : Type} {passes : Nat}

/-! ## Bootstrap -/

/-- One OCI certificate was created for the set, and can be found again. -/
def Found (id F : String) (l : Ledger) : Prop := l.created.length = 1 ∧ ∃ row ∈ rowsOf l, Kept id F row

theorem growing_found : Growing (Found id F) := by
  rintro l l' hcreated hrows ⟨hone, row, hrow, hk⟩
  exact ⟨by rw [hcreated]; exact hone, row, hrows row hrow, hk⟩

/-- Before the creation: the operation is started, and nothing was created. -/
def Ready (id F operationId : String) (l : Ledger) : Prop :=
  Unmade l ∧ Opened id operationId .bootstrap (some F) l

theorem opened_same {certificateId : String} {operationType : OperationType} {f : Option String} {l l' : Ledger}
    (hrows : rowsOf l' = rowsOf l) (h : Opened certificateId operationId operationType f l) :
    Opened certificateId operationId operationType f l' := by
  refine ⟨?_, by rw [hrows]; exact h.row⟩
  unfold World.lastStarted
  rw [show l'.world.database.operations.rows = l.world.database.operations.rows from hrows]
  exact h.last

theorem steady_ready : Steady (Ready id F operationId) := fun _ _ hcreated hrows h =>
  ⟨hcreated.trans h.1, opened_same hrows h.2⟩

section Steps

variable {s s' : Entered} {answer : Except Exc Nat} {t : Transition}

/-- An update that leaves the operation active. -/
theorem opened_step (h : entered Γ faults id s (.sql (.updateOperation operationId t)) answer s')
    (ht : t.state.isTerminal = false) (hs : Opened id operationId .bootstrap (some F) s.1) :
    Opened id operationId .bootstrap (some F) s'.1 := by
  obtain ⟨hlast, row, hrow, hid, hc, hty, hF, hactive⟩ := hs
  obtain ⟨row', hrow', hrewritten⟩ := exists_rewritten (persisting_of_entered h) rfl hrow
  refine ⟨(lastStarted_same h rfl).trans hlast, row', hrow', ?_⟩
  cases hrewritten with
  | same => exact ⟨hid, hc, hty, hF, hactive⟩
  | closed hclosed => cases hclosed
  | transitioned t' hup =>
    cases hup
    refine ⟨hid, hc, hty, hF, ?_⟩
    simp [OperationRow.active, OperationRow.transition, ht]

/-- The record of the OCID. -/
theorem recorded_step (h : entered Γ faults id s (.sql (.updateOperation operationId t)) (.ok n) s')
    (ht : t.state.isTerminal = false) (hocid : t.ociCertificateOcid.isSome = true)
    (hs : Opened id operationId .bootstrap (some F) s.1) : ∃ row ∈ rowsOf s'.1, Kept id F row := by
  have hstep : s.1.world.database.Step (.updateOperation operationId t) n s'.1.world.database := (persisting_of_entered h).2
  obtain ⟨-, row, hrow, hid, hc, hty, hF, -⟩ := hs
  refine ⟨row.transition t, ?_, hc, hty, hF, ?_, Or.inl ?_⟩
  · unfold rowsOf
    rw [hstep.2]
    exact mem_updateOperations.2 (Or.inl ⟨row, hrow, decide_eq_true hid, rfl⟩)
  · show (t.ociCertificateOcid.or row.ociCertificateOcid).isSome = true
    rw [Option.isSome_or, hocid, Bool.true_or]
  · simp [OperationRow.active, OperationRow.transition, ht]

theorem found_step (h : entered Γ faults id s (.sql (.updateOperation operationId t)) answer s')
    (ht : t.state.isTerminal = true → t.state = .completed) (hs : Found id F s.1) : Found id F s'.1 := by
  obtain ⟨hone, row, hrow, hk⟩ := hs
  obtain ⟨row', hrow', hrewritten⟩ := exists_rewritten (persisting_of_entered h) rfl hrow
  refine ⟨by rw [created_same h nofun]; exact hone, row', hrow', kept_rewritten ?_ hrow hrewritten hk⟩
  rintro _ _ hup hterminal
  cases hup
  exact Or.inl (ht hterminal)

end Steps

/-- The fact about the ledger and what was performed since the creation, where the call went as it should. -/
def Since (Γ : Ctx) (config : AppConfig) (id F : String) (ψ : Ledger → Prop) (t : Trace) (s : Entered) : Prop :=
  Fine Γ config id F s.2 → ψ s.1 ∧ ∃ past x post, s.2 = past ++ x :: post ∧ Created id x ∧ post.map (·.2) = t

/-- The exception leaves a creation that can be found again, and is none that `bootstrap` catches. -/
def Passed (Γ : Ctx) (config : AppConfig) (id F : String) (x : Exc) (s : Entered) : Prop :=
  Fine Γ config id F s.2 → Found id F s.1 ∧ x.isOneOf creationFailures = false

/-- The creation was made, and the row of its operation does not bear its OCID yet. -/
def Made (id F operationId : String) (l : Ledger) : Prop :=
  l.created.length = 1 ∧ Opened id operationId .bootstrap (some F) l

theorem steady_made : Steady (Made id F operationId) := fun _ _ hcreated hrows h =>
  ⟨by rw [hcreated]; exact h.1, opened_same hrows h.2⟩

section Since

variable {ψ ψ' : Ledger → Prop} {t : Trace} {s s' : Entered} {op : Op}

theorem followed_since (h : Since Γ config id F ψ t s) (hs : Fine Γ config id F s.2) : Followed Γ config id F t := by
  obtain ⟨-, past, x, post, heq, hx, rfl⟩ := h hs
  rw [heq] at hs
  exact followed_at hs hx

theorem since_step {answer : Except Exc op.Reply} (h : entered Γ faults id s op answer s')
    (hψ : ψ s.1 → ψ' s'.1) (hs : Since Γ config id F ψ t s) : Since Γ config id F ψ' (t ++ [⟨op, answer⟩]) s' := by
  intro hfine
  obtain ⟨hold, past, x, post, heq, hx, rfl⟩ := hs (fine_of_entered h hfine)
  refine ⟨hψ hold, past, x, post ++ [(s.1, ⟨op, answer⟩)], ?_, hx, by rw [List.map_append]; rfl⟩
  rw [entries_of_entered h, heq, List.append_assoc]
  rfl

theorem under_of_since (h : Since Γ config id F ψ t s) : Under Γ config id F ψ s := fun hs => (h hs).1

/-- Before the record, a cut loses the creation. -/
theorem cut_of_made (ht : t.length < 2) (h : Since Γ config id F (Made id F operationId) t s) : Cut Γ config id F s := by
  intro hs
  obtain ⟨⟨hone, -⟩, past, x, post, heq, hx, rfl⟩ := h hs
  refine ⟨hone.le, fun hrecorded => ?_⟩
  have hlength := hrecorded past.length (by rw [heq]; simp) x (by rw [heq]; simp) hx
  rw [heq] at hlength
  simp only [List.length_append, List.length_cons, List.length_map] at hlength ht
  omega

theorem cut_of_found (h : Under Γ config id F (Found id F) s) : Cut Γ config id F s :=
  cut_of_tracked fun hs => Or.inr (h hs)

end Since

/-- A call that did not go as it should. -/
theorem absurd_spec {P : Entered → Prop} {ψ ψ' : Ledger → Prop} (p : Action α) (hP : ∀ s, P s → ¬Fine Γ config id F s.2) :
    Triple (entered Γ faults id) P p (fun _ => Under Γ config id F ψ) (fun _ => Under Γ config id F ψ')
      (Cut Γ config id F) := by
  have hnot : Triple (entered Γ faults id) (fun s => ¬Fine Γ config id F s.2) p (fun _ s => ¬Fine Γ config id F s.2)
      (fun _ s => ¬Fine Γ config id F s.2) fun s => ¬Fine Γ config id F s.2 :=
    Triple.frame p.uses_anything fun _ _ _ _ _ hs h hfine => hs (fine_of_entered h hfine)
  exact hnot.conseq hP (fun _ _ hs hfine => absurd hfine hs) (fun _ _ hs hfine => absurd hfine hs)
    fun _ hs hfine => absurd hfine hs

/-- The record of the OCID after a creation. -/
theorem record_spec (ocid requestId : String) :
    Triple (entered Γ faults id) (Since Γ config id F (Made id F operationId) [])
      (StateStore.transition operationId .ociReconciled
        { ociCertificateOcid := some ocid, opcRequestId := some requestId })
      (fun _ s => ∃ ends : Event publisher Exc × Event publisher Exc,
        Since Γ config id F (Found id F) [ends.1, ends.2] s)
      (Passed Γ config id F) (Cut Γ config id F) := by
  have hactive : StateStore.completedAt .ociReconciled = .ret none := rfl
  unfold StateStore.transition
  rw [hactive]
  simp only [Program.bind_eq, Program.ret_bind]
  refine Triple.bind (R := fun _ s => ∃ e, Since Γ config id F (Made id F operationId) [e] s) ?_ fun updated =>
    Triple.of_exists fun e => ?_
  · refine Triple.bind (R := fun now => Since Γ config id F (Made id F operationId) [⟨.now, .ok now⟩])
      (Triple.perform (fun _ hs => cut_of_made (by decide) hs) (fun s now s' hs h => ?_) fun s x s' hs h => ?_) fun now =>
        Triple.ret (fun _ hs => ⟨_, hs⟩) fun _ hs => cut_of_made (by simp) hs
    · have hs' := since_step h (steady_step steady_made (unentered_of_idle _ rfl) h) hs
      exact ⟨hs', cut_of_made (by simp) hs'⟩
    · -- The clock is answered.
      have hs' := since_step h (steady_step steady_made (unentered_of_idle _ rfl) h) hs
      refine ⟨fun hfine => ?_, cut_of_made (by simp) hs'⟩
      cases (followed_since hs' hfine).recorded _ (List.mem_singleton_self _)
  · refine Triple.bind (R := fun n s => ∃ e', Since Γ config id F (Found id F) [e, e'] s)
      (Triple.perform (fun _ hs => cut_of_made (by simp) hs) (fun s n s' hs h => ?_) fun s x s' hs h => ?_) fun n =>
        Triple.of_exists fun e' => ?_
    · have hs' : Since Γ config id F (Found id F) ([e] ++ [⟨.sql (.updateOperation operationId _), .ok n⟩]) s' := by
        refine since_step h (fun hold => ?_) hs
        exact ⟨by rw [created_same h nofun]; exact hold.1, recorded_step h rfl rfl hold.2⟩
      exact ⟨⟨_, hs'⟩, cut_of_found (under_of_since hs')⟩
    · -- The record is answered.
      have hs' : Since Γ config id F (fun l => l.created.length = 1)
          ([e] ++ [⟨.sql (.updateOperation operationId _), .error x⟩]) s' :=
        since_step h (fun hold => by rw [created_same h nofun]; exact hold.1) hs
      have hnot : ¬Fine Γ config id F s'.2 := by
        intro hfine
        cases (followed_since hs' hfine).recorded _ (List.mem_cons_of_mem _ (List.mem_singleton_self _))
      exact ⟨fun hfine => absurd hfine hnot, fun hfine => absurd hfine hnot⟩
    · split
      · exact Triple.ret (fun _ hs => ⟨(e, e'), hs⟩) fun _ hs => cut_of_found (under_of_since hs)
      · exact Triple.raise (fun _ hs hfine => ⟨(hs hfine).1, by decide⟩) fun _ hs => cut_of_found (under_of_since hs)

/-- The creation: made where it is answered, and where it raises nothing was created. -/
theorem create_spec (requestId : String) :
    Triple (entered Γ faults id) (Under Γ config id F (Ready id F operationId))
      (PublicationService.create Γ certificate material chain F requestId)
      (fun _ => Since Γ config id F (Made id F operationId) []) (fun _ => Under Γ config id F Unmade)
      (Cut Γ config id F) := by
  have hunmade : ∀ s, Under Γ config id F (Ready id F operationId) s → Under Γ config id F Unmade s :=
    fun s hs hfine => (hs hfine).1
  have hcut : ∀ s, Under Γ config id F Unmade s → Cut Γ config id F s :=
    fun s hs => cut_of_tracked fun hfine => tracked_of_unmade (hs hfine)
  refine Triple.bind ((under_frame steady_ready (Program.uses_perform.2 (unentered_of_idle _ rfl))).conseq (fun _ hs => hs)
    (fun _ _ hs => hs) (fun _ s hs => hunmade s hs) fun s hs => hcut s (hunmade s hs)) fun now => ?_
  refine Triple.bind (Triple.ofExcept (fun _ s _ hs => hs) (fun _ s hs => hunmade s hs) fun s hs => hcut s (hunmade s hs))
    fun label => ?_
  refine Triple.perform (fun s hs => hcut s (hunmade s hs)) (fun s ocid s' hs h => ?_) fun s x s' hs h => ?_
  · have hstep : s.1.world.Step Γ (.createImportedCertificate certificate.oci.compartmentOcid certificate.oci.certificateName
        ⟨label, material.leafPem, chain.certChainPem, material.privateKeyPem⟩ requestId) ocid s'.1.world := by
      simpa [service, Op.observes] using h.1.1.1
    obtain ⟨-, v, -, hworld⟩ := hstep
    have hs' : Since Γ config id F (Made id F operationId) [] s' := by
      intro hfine
      obtain ⟨hnone, hopened⟩ := hs (fine_of_entered h hfine)
      refine ⟨⟨?_, opened_same (by unfold rowsOf; rw [hworld]; rfl) hopened⟩, s.2, _, [], entries_of_entered h,
        ⟨hopened.last, rfl, rfl⟩, rfl⟩
      rw [h.1.1.2, if_pos hopened.last, hworld, show s.1.created = [] from hnone]
      simp [World.creations, Mutation.createdOcid]
    exact ⟨hs', cut_of_made (by simp) hs'⟩
  · have hs' : Under Γ config id F Unmade s' := by
      intro hfine
      obtain ⟨hnone, hopened⟩ := hs (fine_of_entered h hfine)
      unfold Unmade
      rw [h.1.1.2, h.1.2 rfl hopened.last x rfl, show s.1.created = [] from hnone]
      simp
    exact ⟨hs', hcut s' hs'⟩

section Caught

variable (hf : ∀ op x, op = .now ∨ op.isSql = true → faults op x → x.isOneOf creationFailures = false)

include hf

/-- Neither the clock nor the store raises what `bootstrap` catches. -/
theorem uncaught_of_entered {s s' : Entered} {op : Op} {x : Exc} (hop : op = .now ∨ op.isSql = true)
    (h : entered Γ faults id s op (.error x) s') : x.isOneOf creationFailures = false := by
  rcases (persisting_of_entered h).1 x rfl with hx | hob
  · exact hf op x hop hx
  · rcases hop with rfl | hsql
    · cases hob
    · cases op with
      | sql => cases hob
      | _ => cases hsql

theorem uncaught_perform {ψ : Ledger → Prop} (hψ : Steady ψ) {op : Op} (hop : unentered op)
    (hkind : op = .now ∨ op.isSql = true) :
    Triple (entered Γ faults id) (Under Γ config id F ψ) (perform op) (fun _ => Under Γ config id F ψ)
      (fun x s => Under Γ config id F ψ s ∧ x.isOneOf creationFailures = false) (Under Γ config id F ψ) := by
  have hkeep : ∀ s answer s', Under Γ config id F ψ s → entered Γ faults id s op answer s' → Under Γ config id F ψ s' :=
    fun s answer s' hs h hfine => steady_step hψ hop h (hs (fine_of_entered h hfine))
  exact Triple.perform (fun _ hs => hs) (fun s _ s' hs h => ⟨hkeep s _ s' hs h, hkeep s _ s' hs h⟩)
    fun s _ s' hs h => ⟨⟨hkeep s _ s' hs h, uncaught_of_entered hf hkind h⟩, hkeep s _ s' hs h⟩

theorem uncaught_utcNow {ψ : Ledger → Prop} (hψ : Steady ψ) :
    Triple (entered Γ faults id) (Under Γ config id F ψ) utcNow (fun _ => Under Γ config id F ψ)
      (fun x s => Under Γ config id F ψ s ∧ x.isOneOf creationFailures = false) (Under Γ config id F ψ) :=
  Triple.bind (uncaught_perform hf hψ (unentered_of_idle _ rfl) (Or.inl rfl)) fun _ =>
    Triple.ret (fun _ hs => hs) fun _ hs => hs

/-- A transition keeps what its update keeps. -/
theorem transition_spec {ψ : Ledger → Prop} (hψ : Steady ψ) {state : OperationState} (fields : TransitionFields)
    (hup : ∀ s t answer s', t.state = state → entered Γ faults id s (.sql (.updateOperation operationId t)) answer s' →
      ψ s.1 → ψ s'.1) :
    Triple (entered Γ faults id) (Under Γ config id F ψ) (StateStore.transition operationId state fields)
      (fun _ => Under Γ config id F ψ) (fun x s => Under Γ config id F ψ s ∧ x.isOneOf creationFailures = false)
      (Under Γ config id F ψ) := by
  have hdated : Triple (entered Γ faults id) (Under Γ config id F ψ) (StateStore.completedAt state)
      (fun _ => Under Γ config id F ψ) (fun x s => Under Γ config id F ψ s ∧ x.isOneOf creationFailures = false)
      (Under Γ config id F ψ) := by
    unfold StateStore.completedAt
    split
    · exact Triple.bind (uncaught_utcNow hf hψ) fun _ => Triple.ret (fun _ hs => hs) fun _ hs => hs
    · exact Triple.ret (fun _ hs => hs) fun _ hs => hs
  refine Triple.bind hdated fun completed => ?_
  refine Triple.bind (uncaught_utcNow hf hψ) fun updated => ?_
  refine Triple.bind (R := fun _ => Under Γ config id F ψ) ?_ fun count => ?_
  · have hkeep : ∀ (t : Transition) s answer s', t.state = state → Under Γ config id F ψ s →
        entered Γ faults id s (.sql (.updateOperation operationId t)) answer s' → Under Γ config id F ψ s' :=
      fun t s answer s' ht hs h hfine => hup s t answer s' ht h (hs (fine_of_entered h hfine))
    exact Triple.perform (fun _ hs => hs) (fun s _ s' hs h => ⟨hkeep _ s _ s' rfl hs h, hkeep _ s _ s' rfl hs h⟩)
      fun s _ s' hs h => ⟨⟨hkeep _ s _ s' rfl hs h, uncaught_of_entered hf (Or.inr rfl) h⟩, hkeep _ s _ s' rfl hs h⟩
  · split
    · exact Triple.ret (fun _ hs => hs) fun _ hs => hs
    · exact Triple.raise (fun _ hs => ⟨hs, by decide⟩) fun _ hs => hs

/-- The end of a bootstrap keeps its row. -/
theorem confirmCreated_spec (ocid : String) (bundle : OciPublicBundle) (f f' : String) (requestId : Option String) :
    Triple (entered Γ faults id) (Under Γ config id F (Found id F))
      (PublicationService.confirmCreated certificate f operationId ocid bundle f' requestId)
      (fun _ => Under Γ config id F (Found id F))
      (fun x s => Under Γ config id F (Found id F) s ∧ x.isOneOf creationFailures = false)
      (Under Γ config id F (Found id F)) := by
  have hsteady : Steady (Found id F) := growing_found.steady
  refine Triple.bind (transition_spec hf hsteady _ fun s t answer s' ht h => found_step h fun hterminal => ?_) fun _ => ?_
  · rw [ht] at hterminal
    cases hterminal
  refine Triple.bind (R := fun _ => Under Γ config id F (Found id F)) ?_ fun _ => ?_
  · exact Triple.bind (uncaught_utcNow hf hsteady) fun _ =>
      uncaught_perform hf hsteady (unentered_of_idle _ rfl) (Or.inr rfl)
  refine Triple.bind (transition_spec hf hsteady _ fun s t answer s' ht h => found_step h fun _ => ht) fun _ => ?_
  exact Triple.ret (fun _ hs => hs) fun _ hs => hs

/-- The read of CURRENT after a creation and its record. -/
theorem readCreated_spec (hc : configuredCertificate config id = .ok certificate) {a b : Event publisher Exc}
    (ocid requestId mismatch : String) :
    Triple (entered Γ faults id) (Since Γ config id F (Found id F) [a, b])
      (PublicationService.readCreated Γ config certificate F ocid requestId mismatch)
      (fun _ => Under Γ config id F (Found id F)) (Passed Γ config id F) (Cut Γ config id F) := by
  have hcut : ∀ {t : Trace} {s : Entered}, Since Γ config id F (Found id F) t s → Cut Γ config id F s :=
    fun h => cut_of_found (under_of_since h)
  have hstep : ∀ {op : Op} {answer : Except Exc op.Reply} {s s' : Entered} {t : Trace}, unentered op →
      Since Γ config id F (Found id F) t s → entered Γ faults id s op answer s' →
        Since Γ config id F (Found id F) (t ++ [⟨op, answer⟩]) s' :=
    fun hop hs h => since_step h (steady_step growing_found.steady hop h) hs
  refine Triple.bind (R := fun bundle => Since Γ config id F (Found id F) [a, b, ⟨.getPublicBundle ocid none requestId, .ok bundle⟩])
    (Triple.perform (fun _ hs => hcut hs) (fun s bundle s' hs h => ?_) fun s x s' hs h => ?_) fun bundle => ?_
  · have hs' := hstep (unentered_of_idle _ rfl) hs h
    exact ⟨hs', hcut hs'⟩
  · have hs' := hstep (unentered_of_idle _ rfl) hs h
    exact ⟨fun hfine => ⟨(hs' hfine).1, (followed_since hs' hfine).read x rfl⟩, hcut hs'⟩
  refine Triple.bind (R := fun now => Since Γ config id F (Found id F)
      [a, b, ⟨.getPublicBundle ocid none requestId, .ok bundle⟩, ⟨.now, .ok now⟩])
    (Triple.perform (fun _ hs => hcut hs) (fun s now s' hs h => ?_) fun s x s' hs h => ?_) fun now => ?_
  · have hs' := hstep (unentered_of_idle _ rfl) hs h
    exact ⟨hs', hcut hs'⟩
  · have hs' := hstep (unentered_of_idle _ rfl) hs h
    exact ⟨fun hfine => ⟨(hs' hfine).1, uncaught_of_entered hf (Or.inl rfl) h⟩, hcut hs'⟩
  -- CURRENT holds the local leaf, so neither check fails.
  have hcurrent : ∀ {s : Entered}, Since Γ config id F (Found id F)
      [a, b, ⟨.getPublicBundle ocid none requestId, .ok bundle⟩, ⟨.now, .ok now⟩] s → Fine Γ config id F s.2 →
        validatePublicCertificate Γ bundle.certificatePem certificate config.global now = .ok F :=
    fun hs hfine => (followed_since hs hfine).current bundle rfl now rfl certificate (by rw [hc]; rfl)
  cases hvalid : validatePublicCertificate Γ bundle.certificatePem certificate config.global now with
  | error x =>
    refine Triple.raise (fun s hs hfine => ?_) fun _ hs => hcut hs
    rw [hvalid] at hcurrent
    cases hcurrent hs hfine
  | ok remoteFingerprint =>
    rw [hvalid] at hcurrent
    show Triple _ _ (if remoteFingerprint ≠ F then _ else _) _ _ _
    split
    · rename_i hne
      refine Triple.raise (fun s hs hfine => ?_) fun _ hs => hcut hs
      cases hcurrent hs hfine
      exact absurd rfl hne
    · exact Triple.ret (fun _ hs => under_of_since hs) fun _ hs => hcut hs

/-- After the creation. -/
theorem confirmCreation_spec (hc : configuredCertificate config id = .ok certificate) (ocid requestId : String) :
    Triple (entered Γ faults id) (Since Γ config id F (Made id F operationId) [])
      (PublicationService.confirmCreation Γ config certificate F operationId ocid requestId)
      (fun _ => Under Γ config id F (Found id F)) (Passed Γ config id F) (Cut Γ config id F) := by
  refine Triple.bind (record_spec ocid requestId) fun _ => Triple.of_exists fun ends => ?_
  refine Triple.bind (readCreated_spec hf hc ocid requestId _) fun read => ?_
  exact (confirmCreated_spec hf ocid read.1 F read.2 none).conseq (fun _ hs => hs) (fun _ _ hs => hs)
    (fun _ _ hs hfine => ⟨hs.1 hfine, hs.2⟩) fun _ hs => cut_of_found hs

/-- A failure before the creation. -/
theorem notCreated_spec (x : Exc) :
    Triple (entered Γ faults id) (Under Γ config id F Unmade) (PublicationService.creationFailed operationId false x)
      (fun _ => Under Γ config id F (Tracked id F)) (fun _ => Under Γ config id F (Tracked id F)) (Cut Γ config id F) := by
  have htracked : ∀ s, Under Γ config id F Unmade s → Under Γ config id F (Tracked id F) s :=
    fun s hs hfine => tracked_of_unmade (hs hfine)
  have htransition : ∀ state, Triple (entered Γ faults id) (Under Γ config id F Unmade)
      (StateStore.transition operationId state) (fun _ => Under Γ config id F Unmade)
      (fun _ => Under Γ config id F (Tracked id F)) (Cut Γ config id F) := by
    intro state
    refine (transition_spec hf growing_unmade.steady _ fun s t answer s' _ h hs => ?_).conseq (fun _ hs => hs)
      (fun _ _ hs => hs) (fun _ s hs => htracked s hs.1) fun s hs => cut_of_tracked (htracked s hs)
    exact (created_same h nofun).trans hs
  have hraise : Triple (entered Γ faults id) (Under Γ config id F Unmade) (.raise x : Action BootstrapResult)
      (fun _ => Under Γ config id F (Tracked id F)) (fun _ => Under Γ config id F (Tracked id F)) (Cut Γ config id F) :=
    Triple.raise htracked fun s hs => cut_of_tracked (htracked s hs)
  unfold PublicationService.creationFailed
  split
  · exact Triple.bind (htransition _) fun _ => hraise
  · split
    · exact Triple.bind (htransition _) fun _ => hraise
    · exact hraise

omit hf in
/-- After a creation nothing is raised that is caught. -/
theorem creationPassed_spec (x : Exc) :
    Triple (entered Γ faults id) (Passed Γ config id F x) (PublicationService.creationFailed operationId true x)
      (fun _ => Under Γ config id F (Tracked id F)) (fun _ => Under Γ config id F (Tracked id F)) (Cut Γ config id F) := by
  by_cases hcaught : x.isOneOf creationFailures = true
  · refine absurd_spec _ fun s hs hfine => ?_
    rw [(hs hfine).2] at hcaught
    cases hcaught
  · simp only [creationFailures, Exc.isOneOf, List.any_cons, List.any_nil, Bool.or_false, Bool.or_eq_true, not_or] at hcaught
    unfold PublicationService.creationFailed
    rw [if_neg hcaught.1, if_neg (by simpa [Exc.isOneOf] using hcaught.2)]
    exact Triple.raise (fun _ hs hfine => Or.inr (hs hfine).1) fun _ hs => cut_of_found fun hfine => (hs hfine).1

/-- From the operation row to the result. -/
theorem createStarted_spec (hc : configuredCertificate config id = .ok certificate) :
    Triple (entered Γ faults id) (Under Γ config id F (Ready id F operationId))
      (PublicationService.createStarted Γ config certificate material chain F operationId)
      (fun _ => Under Γ config id F (Tracked id F)) (fun _ => Under Γ config id F (Tracked id F)) (Cut Γ config id F) := by
  have htracked : ∀ s, Under Γ config id F (Ready id F operationId) s → Under Γ config id F (Tracked id F) s :=
    fun s hs hfine => tracked_of_unmade (hs hfine).1
  refine Triple.bind ((transition_spec hf steady_ready _ fun s t answer s' ht h hs => ?_).conseq (fun _ hs => hs)
    (fun _ _ hs => hs) (fun _ s hs => htracked s hs.1) fun s hs => cut_of_tracked (htracked s hs)) fun _ => ?_
  · exact ⟨(created_same h nofun).trans hs.1, opened_step h (by rw [ht]; rfl) hs.2⟩
  refine Triple.bind (Triple.attempt (Q := fun _ => Since Γ config id F (Made id F operationId) [])
    (E := fun _ => Under Γ config id F Unmade) ?_ (fun _ _ hs => cut_of_made (by simp) hs)
    fun _ _ hs => cut_of_tracked fun hfine => tracked_of_unmade (hs hfine)) fun outcome => ?_
  · refine Triple.bind ((under_frame steady_ready (Program.uses_perform.2 (unentered_of_idle _ rfl))).conseq (fun _ hs => hs)
      (fun _ _ hs => hs) (fun _ _ hs hfine => (hs hfine).1) fun s hs => cut_of_tracked (htracked s hs)) fun requestId => ?_
    refine Triple.bind (create_spec requestId) fun ocid => ?_
    exact Triple.ret (fun _ hs => hs) fun _ hs => cut_of_made (by simp) hs
  · cases outcome with
    | error x => exact notCreated_spec hf x
    | ok created =>
      refine Triple.handle (R := Passed Γ config id F) ?_ creationPassed_spec
      exact (confirmCreation_spec hf hc created.2 created.1).post fun _ s hs hfine => Or.inr (hs hfine)

omit hf in
theorem rowOnly_of_idle (op : Op) (h : op.idle = true) : rowOnly operationId op = true :=
  (@rowOnly_of_quiet operationId "" op (quiet_of_idle op h)).1

omit hf in
/-- A creation writes its own row. -/
theorem uses_createStarted (f : String) :
    (PublicationService.createStarted Γ config certificate material chain f operationId).Uses
      fun op : Op => rowOnly operationId op = true := by
  have htransition : ∀ state fields, (StateStore.transition operationId state fields).Uses
      fun op : Op => rowOnly operationId op = true :=
    StateStore.uses_transition_row (A := fun op : Op => rowOnly operationId op = true) rfl fun _ => decide_eq_true rfl
  have hfailed : ∀ created x, (PublicationService.creationFailed operationId created x).Uses
      fun op : Op => rowOnly operationId op = true := by
    intro created x
    unfold PublicationService.creationFailed
    split
    · exact Program.uses_bind (htransition _ _) fun _ => trivial
    · split
      · exact Program.uses_bind (htransition _ _) fun _ => trivial
      · trivial
  refine Program.uses_bind (htransition _ _) fun _ => ?_
  refine Program.uses_bind (Program.uses_attempt ?_) fun outcome => ?_
  · refine Program.uses_bind (Program.uses_perform.2 rfl) fun requestId => ?_
    refine Program.uses_bind ?_ fun _ => trivial
    refine Program.uses_bind (Program.uses_perform.2 rfl) fun _ => ?_
    exact Program.uses_bind uses_ofExcept fun _ => Program.uses_perform.2 rfl
  · cases outcome with
    | error x => exact hfailed _ _
    | ok created =>
      refine Program.uses_handle ?_ fun x => hfailed _ _
      refine Program.uses_bind (htransition _ _) fun _ => ?_
      refine Program.uses_bind (LifecycleAux.PublicationService.uses_readCreated rowOnly_of_idle _ _) fun _ => ?_
      refine Program.uses_bind (htransition _ _) fun _ => ?_
      refine Program.uses_bind (StateStore.uses_recordFacts (A := fun op : Op => rowOnly operationId op = true) rfl
        fun _ => rfl) fun _ => ?_
      exact Program.uses_bind (htransition _ _) fun _ => trivial

/-- Before a creation for the set: nothing was created, and the fingerprint is that of the local leaf. -/
def Clear (id F certificateId f : String) (l : Ledger) : Prop := Tracked id F l ∧ (certificateId = id → Unmade l ∧ f = F)

theorem createCertificate_spec {certificateId f : String} (hc : configuredCertificate config certificateId = .ok certificate) :
    Triple (entered Γ faults id) (Under Γ config id F (Clear id F certificateId f))
      (PublicationService.createCertificate Γ config certificate material chain f)
      (fun _ => Under Γ config id F (Tracked id F)) (fun _ => Under Γ config id F (Tracked id F)) (Cut Γ config id F) := by
  have hid := configuredCertificate_id hc
  by_cases hset : certificateId = id
  · by_cases hF : f = F
    · subst hF hset
      refine Triple.bind ((startOperation_spec growing_unmade certificate.id .bootstrap (some f) none).conseq
        (fun s hs hfine => ((hs hfine).2 rfl).1) (fun _ _ hs => hs) (fun _ _ hs hfine => tracked_of_unmade (hs hfine))
        fun _ hs => cut_of_tracked fun hfine => tracked_of_unmade (hs hfine)) fun operation => ?_
      rw [hid]
      exact createStarted_spec hf hc
    · -- The call did not go as it should: its leaf is another one.
      exact absurd_spec _ fun s hs hfine => hF ((hs hfine).2 hset).2
  · refine Triple.bind ((startOperation_spec growing_tracked certificate.id .bootstrap (some f) none).conseq
      (fun s hs hfine => (hs hfine).1) (fun _ _ hs => hs) (fun _ _ hs => hs) fun _ hs => cut_of_tracked hs) fun operation => ?_
    refine (foreign_frame (uses_createStarted f)).conseq (fun s hs hfine => ?_) (fun _ _ hs hfine => (hs hfine).1.1)
      (fun _ _ hs hfine => (hs hfine).1.1) fun _ hs => cut_of_tracked fun hfine => (hs hfine).1.1
    obtain ⟨htracked, hopened⟩ := hs hfine
    obtain ⟨row, hrow, hrid, hrc, -⟩ := hopened.row
    refine ⟨⟨htracked, row, hrow, hrid, fun hother => ?_⟩, fun hlast => ?_⟩
    · exact absurd (hid.symm.trans (hrc.symm.trans hother)) hset
    · rw [hopened.last, hid] at hlast
      exact hset (Option.some.inj hlast)

/-- No completed operation of the set bears an OCID. -/
def Undone (id F certificateId : String) (l : Ledger) : Prop :=
  Tracked id F l ∧ (certificateId = id → l.world.database.confirmedRows id = [])

omit hf in
theorem steady_undone {certificateId : String} : Steady (Undone id F certificateId) := by
  rintro l l' hcreated hrows ⟨htracked, hnone⟩
  refine ⟨growing_tracked.steady l l' hcreated hrows htracked, fun hset => ?_⟩
  unfold Database.confirmedRows
  rw [show l'.world.database.operations.rows = l.world.database.operations.rows from hrows]
  exact hnone hset

omit hf in
theorem harmless_transition {state : OperationState} (hs : state.isTerminal = true → state = .completed)
    (fields : TransitionFields) : (StateStore.transition operationId state fields).Uses harmless := by
  refine StateStore.uses_transition_to (A := harmless) (harmless_of_idle _ rfl) fun t hstate _ => ⟨rfl, ?_⟩
  rintro _ _ hup hterminal
  cases hup
  rw [hstate] at hterminal ⊢
  exact hs hterminal

omit hf in
/-- A bootstrap that is not recovered has created nothing. -/
theorem recoverBootstrap_spec {certificateId f : String} (hid : certificate.id = certificateId) :
    Triple (entered Γ faults id)
      (Under Γ config id F fun l => Undone id F certificateId l ∧ (certificateId = id → f = F))
      (PublicationService.recoverBootstrap Γ config certificate f)
      (fun recovered => Under Γ config id F fun l => Tracked id F l ∧ (recovered = none → Clear id F certificateId f l))
      (fun _ => Under Γ config id F (Tracked id F)) (Under Γ config id F (Tracked id F)) := by
  have hsteady : Steady fun l => Undone id F certificateId l ∧ (certificateId = id → f = F) :=
    fun l l' hcreated hrows h => ⟨steady_undone l l' hcreated hrows h.1, h.2⟩
  have hkeep : ∀ {s s' : Entered} {answer}, entered Γ faults id s (.sql (.selectActive certificate.id)) answer s' →
      Under Γ config id F (fun l => Undone id F certificateId l ∧ (certificateId = id → f = F)) s →
        Under Γ config id F (fun l => Undone id F certificateId l ∧ (certificateId = id → f = F)) s' :=
    fun h hs hfine => steady_step hsteady (unentered_of_idle _ rfl) h (hs (fine_of_entered h hfine))
  refine Triple.bind (R := fun active => Under Γ config id F fun l =>
    (Undone id F certificateId l ∧ (certificateId = id → f = F)) ∧
      ∀ row ∈ rowsOf l, row.certificateId = certificateId → row.active = true → row.toOperation ∈ active)
    (Triple.perform (fun _ hs hfine => (hs hfine).1.1) (fun s active s' hs h => ?_) fun s x s' hs h =>
      ⟨fun hfine => (hkeep h hs hfine).1.1, fun hfine => (hkeep h hs hfine).1.1⟩) fun active => ?_
  · refine ⟨fun hfine => ⟨hkeep h hs hfine, fun row hrow hc hactive => ?_⟩, fun hfine => (hkeep h hs hfine).1.1⟩
    have hstep : s.1.world.database.Step (.selectActive certificate.id) active s'.1.world.database :=
      (persisting_of_entered h).2
    obtain ⟨hdb, l, hperm, -, rfl⟩ := hstep
    unfold rowsOf at hrow
    rw [hdb] at hrow
    refine List.mem_map_of_mem (hperm.mem_iff.2 (List.mem_filter.2 ⟨hrow, ?_⟩))
    rw [hactive, decide_eq_true (hc.trans hid.symm)]
    rfl
  have htracks : ∀ {β : Type} {p : Action β} (r : Option BootstrapResult), Tracks Γ faults config id F p →
      Triple (entered Γ faults id) (Under Γ config id F (Tracked id F)) (p.bind fun _ => .ret r)
        (fun recovered => Under Γ config id F fun l => Tracked id F l ∧ recovered = r)
        (fun _ => Under Γ config id F (Tracked id F)) (Under Γ config id F (Tracked id F)) :=
    fun r hp => Triple.bind hp fun _ => Triple.ret (fun _ hs hfine => ⟨hs hfine, rfl⟩) fun _ hs => hs
  split
  · rename_i hnone
    refine Triple.ret (fun s hs hfine => ?_) fun _ hs hfine => (hs hfine).1.1.1
    obtain ⟨⟨⟨htracked, hundone⟩, hF⟩, hactive⟩ := hs hfine
    refine ⟨htracked, fun _ => ⟨htracked, fun hset => ⟨?_, hF hset⟩⟩⟩
    rcases htracked with hunmade | ⟨-, row, hrow, hk⟩
    · exact hunmade
    · -- The row of a creation would have been found, as an active or as a completed one.
      exfalso
      rcases hk.state with hrunning | hcompleted
      · have hmem := hactive row hrow (hk.certificate.trans hset.symm) hrunning
        have hrecoverable : PublicationService.isRecoverable f row.toOperation = true := by
          simp [PublicationService.isRecoverable, OperationRow.toOperation, hk.type, hk.fingerprint, hF hset, hk.ocid]
        have hfound := List.mem_filter.2 ⟨hmem, hrecoverable⟩
        rw [hnone] at hfound
        cases hfound
      · have hfound : row ∈ s.1.world.database.confirmedRows id :=
          List.mem_filter.2 ⟨hrow, by simp [hk.certificate, hcompleted, hk.ocid]⟩
        rw [hundone hset] at hfound
        cases hfound
  · refine Triple.conseq (P := Under Γ config id F (Tracked id F))
      (Q := fun recovered => Under Γ config id F fun l => Tracked id F l ∧ ¬recovered = none) ?_
      (fun s hs hfine => (hs hfine).1.1.1) (fun _ _ hs hfine => ⟨(hs hfine).1, fun hno => absurd hno (hs hfine).2⟩)
      (fun _ _ hs => hs) fun _ hs => hs
    split
    · exact Triple.raise (fun _ hs => hs) fun _ hs => hs
    · refine Triple.bind (tracks_perform rfl) fun requestId => ?_
      refine Triple.bind (tracks_of_uses (LifecycleAux.PublicationService.uses_readCreated harmless_of_idle _ _)) fun read => ?_
      refine Triple.bind (tracks_of_uses ?_) fun result => ?_
      · refine Program.uses_bind (harmless_transition (by decide) _) fun _ => ?_
        refine Program.uses_bind (StateStore.uses_recordFacts (A := harmless) (harmless_of_idle _ rfl)
          fun _ => harmless_of_idle _ rfl) fun _ => ?_
        exact Program.uses_bind (harmless_transition (fun _ => rfl) _) fun _ => trivial
      · exact (htracks (some result) (tracks_perform rfl)).post fun recovered s hs hfine =>
          ⟨(hs hfine).1, by rw [(hs hfine).2]; nofun⟩
  · exact Triple.raise (fun _ hs hfine => (hs hfine).1.1.1) fun _ hs hfine => (hs hfine).1.1.1

/-- Between two calls, and wherever a call is cut. -/
abbrev Guards (Γ : Ctx) (faults : Faults) (config : AppConfig) (id F : String) (ψ : Ledger → Prop) (p : Action α) : Prop :=
  Triple (entered Γ faults id) (Under Γ config id F ψ) p (fun _ => Under Γ config id F (Tracked id F))
    (fun _ => Under Γ config id F (Tracked id F)) (Cut Γ config id F)

omit hf in
theorem guards_of_tracks {p : Action α} (hp : Tracks Γ faults config id F p) :
    Guards Γ faults config id F (Tracked id F) p :=
  hp.conseq (fun _ hs => hs) (fun _ _ hs => hs) (fun _ _ hs => hs) fun _ hs => cut_of_tracked hs

omit hf in
theorem guards_raise {ψ : Ledger → Prop} (hψ : ∀ l, ψ l → Tracked id F l) {x : Exc} :
    Guards Γ faults config id F ψ (.raise x : Action α) :=
  Triple.raise (fun _ hs hfine => hψ _ (hs hfine)) fun _ hs => cut_of_tracked fun hfine => hψ _ (hs hfine)

/-- A bootstrap. -/
theorem bootstrap_spec (certificateId : String) :
    Guards Γ faults config id F (Undone id F certificateId) (PublicationService.bootstrap Γ config certificateId) := by
  have hbefore : ∀ {β : Type} {p : Action β} {ψ : Ledger → Prop}, Steady ψ → (∀ l, ψ l → Undone id F certificateId l) →
      p.Uses unentered → Triple (entered Γ faults id) (Under Γ config id F ψ) p (fun _ => Under Γ config id F ψ)
        (fun _ => Under Γ config id F (Tracked id F)) (Cut Γ config id F) :=
    fun hψ himp hp => (under_frame hψ hp).conseq (fun _ hs => hs) (fun _ _ hs => hs)
      (fun _ _ hs hfine => (himp _ (hs hfine)).1) fun _ hs => cut_of_tracked fun hfine => (himp _ (hs hfine)).1
  have hidle : ∀ {β : Type} {p : Action β}, p.Uses unentered → Triple (entered Γ faults id)
      (Under Γ config id F (Undone id F certificateId)) p (fun _ => Under Γ config id F (Undone id F certificateId))
        (fun _ => Under Γ config id F (Tracked id F)) (Cut Γ config id F) :=
    fun hp => hbefore steady_undone (fun _ h => h) hp
  cases hc : configuredCertificate config certificateId with
  | error x =>
    have hraise : PublicationService.bootstrap Γ config certificateId = .raise x := by
      unfold PublicationService.bootstrap
      rw [hc]
      rfl
    rw [hraise]
    exact guards_raise fun _ h => h.1
  | ok certificate =>
    have hid := configuredCertificate_id hc
    unfold PublicationService.bootstrap
    rw [hc]
    show Triple _ _ (if certificate.oci.certificateOcid ≠ none then _ else _) _ _ _
    split
    · exact guards_raise fun _ h => h.1
    refine Triple.bind (hidle (PublicationService.uses_requireProductionQualification unentered_of_idle)) fun _ => ?_
    refine Triple.bind (hidle (PublicationService.uses_runPreflight unentered_of_idle)) fun _ => ?_
    refine Triple.bind (hidle (Program.uses_perform.2 (unentered_of_idle _ rfl))) fun _ => ?_
    refine Triple.bind (hidle (NativeAcmeService.uses_issue unentered_of_idle (fun _ _ => ⟨rfl, rfl⟩) (fun _ _ => ⟨rfl, rfl⟩)
      (fun _ => ⟨rfl, rfl⟩) false)) fun _ => ?_
    refine Triple.bind (hidle (Program.uses_perform.2 (unentered_of_idle _ rfl))) fun _ => ?_
    refine Triple.bind (R := fun material => Under Γ config id F fun l =>
      Undone id F certificateId l ∧ (certificateId = id → certificateSha256 material.leaf = F)) ?_ fun material => ?_
    · have hkeep : ∀ {s s' : Entered} {answer}, entered Γ faults id s (.loadLineage certificate.id) answer s' →
          Under Γ config id F (Undone id F certificateId) s → Under Γ config id F (Undone id F certificateId) s' :=
        fun h hs hfine => steady_step steady_undone (unentered_of_idle _ rfl) h (hs (fine_of_entered h hfine))
      have hcut : ∀ {s : Entered}, Under Γ config id F (Undone id F certificateId) s → Cut Γ config id F s :=
        fun hs => cut_of_tracked fun hfine => (hs hfine).1
      refine Triple.perform (fun _ hs => hcut hs) (fun s material s' hs h => ⟨fun hfine => ⟨hkeep h hs hfine, fun hset => ?_⟩,
        hcut (hkeep h hs)⟩) fun s x s' hs h => ⟨fun hfine => (hkeep h hs hfine).1, hcut (hkeep h hs)⟩
      refine hfine.lineage (s.1, ⟨.loadLineage certificate.id, .ok material⟩) ?_ material (if_pos (hid.trans hset))
      rw [entries_of_entered h]
      exact List.mem_append_right _ (List.mem_singleton_self _)
    have hsteady : Steady fun l => Undone id F certificateId l ∧ (certificateId = id → certificateSha256 material.leaf = F) :=
      fun l l' hcreated hrows h => ⟨steady_undone l l' hcreated hrows h.1, h.2⟩
    refine Triple.bind (hbefore hsteady (fun _ h => h.1) (Program.uses_perform.2 (unentered_of_idle _ rfl))) fun now => ?_
    cases hvalid : validateCertificateMaterial Γ material certificate config.compatibility config.global now with
    | error x => exact guards_raise fun _ h => h.1.1
    | ok f =>
      obtain rfl : f = certificateSha256 material.leaf := (validateCertificateMaterial_ok hvalid).2
      show Triple _ _ ((buildChain Γ config certificate material).bind _) _ _ _
      refine Triple.bind (hbefore hsteady (fun _ h => h.1) (uses_buildChain unentered_of_idle)) fun chain => ?_
      refine Triple.bind (hbefore hsteady (fun _ h => h.1) (PublicationService.uses_openPorts unentered_of_idle)) fun _ => ?_
      refine Triple.bind ((recoverBootstrap_spec hid).conseq (fun _ hs => hs) (fun _ _ hs => hs) (fun _ _ hs => hs)
        fun _ hs => cut_of_tracked hs) fun recovered => ?_
      cases recovered with
      | some result => exact Triple.ret (fun _ hs hfine => (hs hfine).1) fun _ hs => cut_of_tracked fun hfine => (hs hfine).1
      | none => exact (createCertificate_spec hf hc).pre fun _ hs hfine => (hs hfine).2 rfl

/-! ## The timer run -/

/-- The attempt of one set. -/
theorem attemptRenewal_spec (certificate : CertificateConfig) :
    Guards Γ faults config id F (Tracked id F) (PublicationService.attemptRenewal Γ config passes certificate) := by
  unfold PublicationService.attemptRenewal
  split
  · exact guards_of_tracks (tracks_renew certificate.id)
  · refine Triple.bind (guards_of_tracks (tracks_perform rfl)) fun _ => ?_
    have hkeep : ∀ {s s' : Entered} {answer}, entered Γ faults id s (.sql (.selectConfirmedOcid certificate.id)) answer s' →
        Under Γ config id F (Tracked id F) s → Under Γ config id F (Tracked id F) s' :=
      fun h hs hfine => steady_step growing_tracked.steady (unentered_of_idle _ rfl) h (hs (fine_of_entered h hfine))
    refine Triple.bind (R := fun recovered => Under Γ config id F fun l =>
      Tracked id F l ∧ (recovered = none → Undone id F certificate.id l))
      (Triple.perform (fun _ hs => cut_of_tracked hs) (fun s recovered s' hs h => ⟨fun hfine =>
        ⟨hkeep h hs hfine, fun hnone => ⟨hkeep h hs hfine, fun hset => ?_⟩⟩, cut_of_tracked (hkeep h hs)⟩)
        fun s x s' hs h => ⟨hkeep h hs, cut_of_tracked (hkeep h hs)⟩) fun recovered => ?_
    · have hstep : s.1.world.database.Step (.selectConfirmedOcid certificate.id) recovered s'.1.world.database :=
        (persisting_of_entered h).2
      obtain ⟨hdb, ⟨-, hempty⟩ | ⟨row, hrow, -, hocid⟩⟩ := hstep
      · rw [hdb, ← hset]
        exact hempty
      · -- A confirmed row bears an OCID.
        have hsome := (List.mem_filter.1 hrow).2
        rw [← hocid, hnone] at hsome
        simp at hsome
    · cases recovered with
      | none =>
        refine Triple.bind ((bootstrap_spec hf certificate.id).pre fun _ hs hfine => (hs hfine).2 rfl) fun created => ?_
        exact Triple.ret (fun _ hs => hs) fun _ hs => cut_of_tracked hs
      | some ocid => exact (guards_of_tracks (tracks_renew certificate.id)).pre fun _ hs hfine => (hs hfine).1

theorem renewAll_spec : Guards Γ faults config id F (Tracked id F) (PublicationService.renewAll Γ config passes) := by
  have hnotify : ∀ certificateId event, Guards Γ faults config id F (Tracked id F)
      (PublicationService.notifyEvent Γ config certificateId event) :=
    fun _ _ => guards_of_tracks (tracks_idle (PublicationService.uses_notifyEvent (fun _ h => h) _ _))
  refine Triple.subst (fun _ hs => cut_of_tracked hs) (fun op => ?_) _
  cases op with
  | notifyUnverified certificate => exact hnotify _ _
  | attempt certificate => exact attemptRenewal_spec hf certificate
  | notifyExpiry certificate =>
    refine Triple.bind (guards_of_tracks (tracks_perform rfl)) fun now => ?_
    refine Triple.bind (guards_of_tracks (tracks_idle ?_)) fun event => ?_
    · refine Program.uses_bind ?_ fun remaining => ?_
      · refine Program.uses_bind (Program.uses_attempt (Program.uses_perform.2 rfl)) fun content => ?_
        cases content with
        | ok raw => trivial
        | error x =>
          simp only
          split <;> trivial
      · cases remaining with
        | none => trivial
        | some remaining =>
          simp only
          split
          · trivial
          · split <;> trivial
    · cases event with
      | none => exact guards_of_tracks tracks_ret
      | some event => exact hnotify _ _
  | notifyFailure certificate error => exact hnotify _ _

/-- A call keeps the record of the set. -/
theorem invocation_spec (s : Invocation) :
    Guards Γ faults s.config id F
      (fun l => Tracked id F l ∧ (s.bootstraps id = true → l.world.database.confirmedRows id = [])) (s.run Γ) := by
  have hret : ∀ {β : Type} {ψ : Ledger → Prop} {p : Action β}, Guards Γ faults s.config id F ψ p →
      Guards Γ faults s.config id F ψ (p.bind fun _ => .ret ()) :=
    fun hp => Triple.bind hp fun _ => Triple.ret (fun _ hs => hs) fun _ hs => cut_of_tracked hs
  cases s with
  | bootstrap config certificateId =>
    refine (hret (bootstrap_spec hf certificateId)).pre fun l hs hfine => ⟨(hs hfine).1, fun hset => ?_⟩
    exact (hs hfine).2 (decide_eq_true hset)
  | renewAll config passes => exact (hret (renewAll_spec hf)).pre fun l hs hfine => (hs hfine).1

end Caught

/-! ## Histories -/

/-- The first entry of a call has the ledger it started from. -/
theorem first_entry {p : Action α} {l l' : Ledger} {o : Outcome Exc α} {c : Performed}
    (h : Exec (entered Γ faults id) p (l, []) o (l', c)) : l' = l ∨ ∃ e, c.head? = some (l, e) := by
  cases h with
  | ret | raise | crash => exact Or.inl rfl
  | @call op k _ l₁ _ answer _ hstep hrest =>
    obtain ⟨rest, hgrow, -⟩ := hrest.chronicled
    rw [entries_of_entered hstep] at hgrow
    exact Or.inr ⟨⟨op, answer⟩, by rw [show c = _ from hgrow]; rfl⟩

/-- A call from a ledger that is tracked. -/
theorem call_spec (hf : ∀ op x, op = .now ∨ op.isSql = true → faults op x → x.isOneOf creationFailures = false)
    {s : Invocation} {l l' : Ledger} {o : Outcome Exc Unit} {c : Performed} (hl : Tracked id F l)
    (h : Exec (entered Γ faults id) (s.run Γ) (l, []) o (l', c)) (hs : s.Sound Γ id F c) :
    l'.created.length ≤ 1 ∧ (Settled id c → Tracked id F l') := by
  have hfine : Fine Γ s.config id F c := ⟨hs.lineage, hs.followed⟩
  have htracked : ∀ l, Tracked id F l → l.created.length ≤ 1 ∧ (Settled id c → Tracked id F l) :=
    fun l hl => @cut_of_tracked Γ s.config id F (l, c) (fun _ => hl) hfine
  rcases first_entry h with rfl | ⟨e, hfirst⟩
  · exact htracked l' hl
  · have hpost := invocation_spec hf s (l, []) (fun _ => ⟨hl, hs.due _ hfirst⟩) o (l', c) h
    cases o with
    | returned | raised => exact htracked l' (hpost hfine)
    | crashed => exact hpost hfine

end OneCreation

open OneCreation

/-- Over any history of bootstrap calls and timer runs, each cut, failing or returning, the service creates at most one OCI certificate
for a set whose local leaf stays the same, in every state a call reaches: where a creation that is reported as an error has not taken
effect, `bootstrap` is not called for the set once a completed operation bears its OCID, no call is cut between a creation and its
record, the clock and the record are answered then, and CURRENT can be read after it and holds the local leaf. -/
theorem created_at_most_once (Γ : Ctx) {faults : Faults}
    (hf : ∀ op x, op = .now ∨ op.isSql = true → faults op x → x.isOneOf creationFailures = false) {certificateId F : String}
    {start w w' : Ledger} {l : List (Invocation × Performed)} (hstart : start.created = [])
    (h : Annals (truthful certificateId (entering certificateId (service Γ faults))) (Invocation.run Γ) start l w)
    (hl : ∀ x ∈ l, x.1.Sound Γ certificateId F x.2 ∧ Settled certificateId x.2) {s : Invocation} {o : Outcome Exc Unit}
    {c : Performed}
    (hx : Exec (chronicling (truthful certificateId (entering certificateId (service Γ faults)))) (s.run Γ) (w, []) o (w', c))
    (hs : s.Sound Γ certificateId F c) : w'.created.length ≤ 1 := by
  have htracked : (∀ x ∈ l, x.1.Sound Γ certificateId F x.2 ∧ Settled certificateId x.2) → Tracked certificateId F w := by
    refine h.keeps (I := fun l w => (∀ x ∈ l, x.1.Sound Γ certificateId F x.2 ∧ Settled certificateId x.2) →
      Tracked certificateId F w) (fun l w s o c w' hw hx hl => ?_) fun _ => Or.inl hstart
    obtain ⟨hsound, hrecorded⟩ := hl (s, c) (List.mem_append_right _ (List.mem_singleton_self _))
    exact (call_spec hf (hw fun x hx => hl x (List.mem_append_left _ hx)) hx hsound).2 hrecorded
  exact (call_spec hf (htracked hl) hx hs).1

namespace OneCreation

open Sample

/-- What a handler of the service creates is entered. -/
def enteringHandler (certificateId : String) (h : Handler publisher Exc World) : Handler publisher Exc Ledger := fun l op =>
  (h l.world op).map fun (answer, w') =>
    (answer, {
      world := w'
      created := l.created ++
        if l.world.lastStarted = some certificateId then w'.creations.drop l.world.creations.length else [] })

/-- A handler whose failed creations change nothing. -/
theorem enteringHandler_allowed {certificateId : String} {h : Handler publisher Exc World} {env : Env publisher Exc World}
    (hh : h.Allowed env)
    (hsame : ∀ w op x w', op.creates = true → h w op = some (.error x, w') → w' = w) :
    (enteringHandler certificateId h).Allowed (truthful certificateId (entering certificateId env)) := by
  intro l op answer l' hl
  obtain ⟨⟨r, w⟩, hx, heq⟩ := Option.map_eq_some_iff.1 hl
  cases heq
  refine ⟨⟨hh _ _ _ _ hx, rfl⟩, fun hcreates _ x hr => ?_⟩
  subst hr
  exact hsame _ _ _ _ hcreates hx

theorem simulate_same {Γ : Ctx} {s : Script} {w w' : World} {op : Op} {x : Exc} (hop : op.creates = true)
    (h : simulate Γ s w op = some (.error x, w')) : w' = w := by
  unfold simulate at h
  split at h
  · rename_i hob
    cases op with
    | createImportedCertificate => cases hob
    | _ => cases hop
  · obtain ⟨⟨reply, w₁⟩, -, heq⟩ := Option.map_eq_some_iff.1 h
    cases heq

theorem simulateFailing_same {Γ : Ctx} {s : Script} {test : Op → Bool} {y : Exc} {w w' : World} {op : Op} {x : Exc}
    (hop : op.creates = true) (h : simulateFailing Γ s test y w op = some (.error x, w')) : w' = w := by
  unfold simulateFailing at h
  split at h
  · cases h
    rfl
  · exact simulate_same hop h

/-- The sample context, where a version's name tells the first day from the second. -/
def stamped : Ctx :=
  { ctx with compactTimestamp := fun now => if now = days 1 then "19700102T000000Z" else "19700103T000000Z" }

/-- The sample set without an OCI certificate, its audits switched off. -/
def unbound : AppConfig :=
  config { certificate with audit := { mode := .disabled }, oci := { certificate.oci with certificateOcid := none } }

/-- The sample world without an OCI certificate. -/
def unpublished : Ledger where
  world := { world resource with certificates := fun _ => none }

/-- The public bundle cannot be read. -/
def unread : Exc := .of .ociCertificateError "OCI request failed"

def readsBundle : Op → Bool
  | .getPublicBundle .. => true
  | _ => false

def bundleFaults : Faults := fun op x => readsBundle op = true ∧ x = unread

/-- A call of the sample, with its entries. -/
def calledRun (h : Handler publisher Exc World) (s : Invocation) (l : Ledger) : Outcome Exc Unit × Ledger × Performed :=
  (s.run stamped).runFor (enteringHandler "web" h).chronicle 120 (l, [])

theorem calledRun_exec {faults : Faults} {h : Handler publisher Exc World} (hh : h.Allowed (service stamped faults))
    (hsame : ∀ w op x w', op.creates = true → h w op = some (.error x, w') → w' = w) (s : Invocation) (l : Ledger) :
    Exec (entered stamped faults "web") (s.run stamped) (l, []) (calledRun h s l).1 (calledRun h s l).2 :=
  exec_runFor (enteringHandler_allowed hh hsame).chronicle 120 (s.run stamped) (l, [])

/-- The bootstrap whose read of CURRENT fails after the creation. -/
def unconfirmed : Outcome Exc Unit × Ledger × Performed :=
  calledRun (simulateFailing stamped script readsBundle unread) (.bootstrap unbound "web") unpublished

/-- The outside of the next day, with the stored leaf. -/
def nextDay : Script :=
  { script with now := days 2, file := fun path => if path = "/root.pem" then some [82] else some [66] }

/-- The timer run of the next day. -/
def repeated : Outcome Exc Unit × Ledger × Performed :=
  calledRun (simulate stamped nextDay) (.renewAll unbound 1) unconfirmed.2.1

/-- The bootstrap that goes as it should. -/
def confirmed : Outcome Exc Unit × Ledger × Performed := calledRun (simulate stamped script) (.bootstrap unbound "web") unpublished

/-- The timer run of the day after it. -/
def renewed : Outcome Exc Unit × Ledger × Performed :=
  calledRun (simulate stamped nextDay) (.renewAll unbound 1) confirmed.2.1

end OneCreation

/-- OCI creates the certificate, and the read of its bundle fails with `OciCertificateError`: the operation is closed as failed. The
next timer run, on the same local generation, finds no OCID and creates a second certificate. -/
theorem created_at_most_once_false :
    Annals (truthful "web" (entering "web" (service stamped bundleFaults))) (Invocation.run stamped) unpublished
        ([] ++ [(.bootstrap unbound "web", unconfirmed.2.2)] ++ [(.renewAll unbound 1, repeated.2.2)]) repeated.2.1 ∧
      (∀ c ∈ [unconfirmed.2.2, repeated.2.2], ∀ x ∈ c, ∀ material ∈ loadedLineage "web" x.2,
        certificateSha256 material.leaf = certificateSha256 Sample.material.leaf) ∧
        repeated.2.1.created.length = 2 := by
  have hfirst := @calledRun_exec bundleFaults _ (simulateFailing_allowed stamped Sample.script fun op h => ⟨h, rfl⟩)
    (fun _ _ _ _ => simulateFailing_same) (.bootstrap unbound "web") unpublished
  have hsecond := calledRun_exec (simulate_allowed stamped nextDay bundleFaults)
    (fun _ _ _ _ => simulate_same) (.renewAll unbound 1) unconfirmed.2.1
  exact ⟨((Annals.nil _).snoc hfirst).snoc hsecond, by decide +kernel, by decide +kernel⟩

/-- A bootstrap that goes as it should, and the timer run of the next day. -/
theorem created_at_most_once_sample :
    confirmed.2.1.created.length = 1 ∧ renewed.1 = .returned () ∧ renewed.2.1.created.length ≤ 1 := by
  have hfirst := calledRun_exec (simulate_allowed stamped Sample.script noFaults) (fun _ _ _ _ => simulate_same)
    (.bootstrap unbound "web") unpublished
  have hsecond := calledRun_exec (simulate_allowed stamped nextDay noFaults)
    (fun _ _ _ _ => simulate_same) (.renewAll unbound 1) confirmed.2.1
  have hruns : (confirmed.2.1.created.length = 1 ∧
      (Invocation.bootstrap unbound "web").Sound stamped "web" (certificateSha256 Sample.material.leaf) confirmed.2.2 ∧
        Settled "web" confirmed.2.2) ∧
      renewed.1 = .returned () ∧
        (Invocation.renewAll unbound 1).Sound stamped "web" (certificateSha256 Sample.material.leaf) renewed.2.2 := by
    decide +kernel
  obtain ⟨⟨hcreated, hsound⟩, hreturned, hsound'⟩ := hruns
  refine ⟨hcreated, hreturned, ?_⟩
  refine created_at_most_once (F := certificateSha256 Sample.material.leaf) stamped (fun _ _ _ h => h.elim) rfl
    ((Annals.nil unpublished).snoc hfirst) (fun x hx => ?_) hsecond hsound'
  rw [List.nil_append, List.mem_singleton] at hx
  subst hx
  exact hsound

end OciAcmePublisher
