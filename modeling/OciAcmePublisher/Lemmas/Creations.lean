import OciAcmePublisher.CreationLedger
import OciAcmePublisher.Lemmas.Lifecycle

/-!
# What keeps the record of a creation

The record of a creation is the row of a bootstrap that bears an OCID and is active or completed. No service gives such a row another
terminal state but `bootstrap` itself: every program writes the row it has inserted, and the bulk updates complete what they close.
-/

namespace OciAcmePublisher

open Effects Tables

namespace OneCreation

variable {Γ : Ctx} {faults : Faults} {config settings : AppConfig} {certificate : CertificateConfig}
  {material : LineageMaterial} {chain : OciCertificateChain} {id F operationId : String} {α β : Type} {passes : Nat}

/-! ## What a step makes of the rows -/

/-- The operation is a bulk update. -/
def closes : Op → Bool
  | .sql (.completeReconciled ..) | .sql (.completeInterruptedAudits ..) => true
  | _ => false

/-- What becomes of a row that is there: it stays, it is transitioned, or a bulk update completes it. -/
inductive Rewritten (op : Op) (r : OperationRow) : OperationRow → Prop where
  | same : Rewritten op r r
  | transitioned (t : Transition) : op = .sql (.updateOperation r.operationId t) → Rewritten op r (r.transition t)
  | closed {r' : OperationRow} : closes op = true → r'.operationId = r.operationId → r'.certificateId = r.certificateId →
      r'.operationType = r.operationType → r'.localFingerprint = r.localFingerprint →
        r'.ociCertificateOcid = r.ociCertificateOcid → r'.state = .completed → Rewritten op r r'

theorem rewritten_operationId {op : Op} {r r' : OperationRow} (h : Rewritten op r r') : r'.operationId = r.operationId := by
  cases h with
  | same => rfl
  | transitioned => rfl
  | closed _ hid => exact hid

theorem rewritten_certificateId {op : Op} {r r' : OperationRow} (h : Rewritten op r r') :
    r'.certificateId = r.certificateId := by
  cases h with
  | same => rfl
  | transitioned => rfl
  | closed _ _ hc => exact hc

theorem rewritten_operationType {op : Op} {r r' : OperationRow} (h : Rewritten op r r') :
    r'.operationType = r.operationType := by
  cases h with
  | same => rfl
  | transitioned => rfl
  | closed _ _ _ hty => exact hty

/-- The operation inserts an operation row. -/
def inserts : Op → Bool
  | .sql (.insertOperation _) => true
  | _ => false

/-- A statement that inserts no row rewrites each of them. -/
theorem rows_of_step {s : Statement} {reply : s.Reply} {db db' : Database} (h : db.Step s reply db')
    (hs : inserts (.sql s) = false) :
    ∃ f, db'.operations.rows = db.operations.rows.map f ∧ ∀ r, Rewritten (.sql s) r (f r) := by
  have hsame : db'.operations = db.operations →
      ∃ f, db'.operations.rows = db.operations.rows.map f ∧ ∀ r, Rewritten (.sql s) r (f r) := by
    intro heq
    exact ⟨id, by rw [heq, List.map_id], fun _ => .same⟩
  cases s with
  | insertOperation row => cases hs
  | updateOperation id t =>
    refine ⟨_, by rw [h.2]; exact Table.rows_updateWhere _ _ _ (OperationRow.transition_operationId t), fun r => ?_⟩
    split
    · rename_i hid
      exact .transitioned t (by rw [of_decide_eq_true hid])
    · exact .same
  | completeReconciled certificateId F version excluding now =>
    refine ⟨_, by rw [h.2]; exact Table.rows_updateWhere _ _ _ (OperationRow.complete_operationId version now), fun r => ?_⟩
    split
    · exact .closed rfl rfl rfl rfl rfl rfl rfl
    · exact .same
  | completeInterruptedAudits certificateId excluding now =>
    refine ⟨_, by rw [h.2]; exact Table.rows_updateWhere _ _ _ (OperationRow.completeAudit_operationId now), fun r => ?_⟩
    split
    · exact .closed rfl rfl rfl rfl rfl rfl rfl
    · exact .same
  | selectActive | selectConfirmedOcid | selectAlert => exact hsame (by rw [h.1])
  | upsertFacts | upsertAlert => exact hsame (by rw [show db' = _ from h])

/-- The same of an operation, whether it is answered or raises. -/
theorem rows_of_persisting {op : Op} {answer : Except Exc op.Reply} {db db' : Database}
    (h : persisting faults db op answer db') (hop : inserts op = false) :
    ∃ f, db'.operations.rows = db.operations.rows.map f ∧ ∀ r, Rewritten op r (f r) := by
  have hsame : db' = db → ∃ f, db'.operations.rows = db.operations.rows.map f ∧ ∀ r, Rewritten op r (f r) := by
    rintro rfl
    exact ⟨id, by rw [List.map_id], fun _ => .same⟩
  have hmatch := h.2
  cases op with
  | sql s =>
    cases answer with
    | ok reply => exact rows_of_step hmatch hop
    | error x =>
      rcases (show db' = db ∨ ∃ reply, db.Step s reply db' from hmatch) with heq | ⟨reply, hstep⟩
      · exact hsame heq
      · exact rows_of_step hstep hop
  | _ => exact hsame hmatch

/-- Where no row is inserted, a row that is there is rewritten. -/
theorem exists_rewritten {op : Op} {answer : Except Exc op.Reply} {db db' : Database} (h : persisting faults db op answer db')
    (hop : inserts op = false) {r : OperationRow} (hr : r ∈ db.operations.rows) :
    ∃ r' ∈ db'.operations.rows, Rewritten op r r' := by
  obtain ⟨f, hrows, hf⟩ := rows_of_persisting h hop
  exact ⟨f r, by rw [hrows]; exact List.mem_map_of_mem hr, hf r⟩

/-- An insertion appends its row, where it takes effect. -/
theorem rows_of_insert {row : OperationRow} {answer : Except Exc Unit} {db db' : Database}
    (h : persisting faults db (.sql (.insertOperation row)) answer db') :
    (answer ≠ .ok () ∧ db'.operations.rows = db.operations.rows) ∨ db'.operations.rows = db.operations.rows ++ [row] := by
  have hstep : ∀ reply, db.Step (.insertOperation row) reply db' → db'.operations.rows = db.operations.rows ++ [row] := by
    rintro reply ⟨t, ht, rfl⟩
    exact (Table.insert_eq_some_iff.1 ht).2
  have hmatch := h.2
  cases answer with
  | ok reply => exact Or.inr (hstep reply hmatch)
  | error x =>
    rcases (show db' = db ∨ ∃ reply, db.Step (.insertOperation row) reply db' from hmatch) with rfl | ⟨reply, hs⟩
    · exact Or.inl ⟨nofun, rfl⟩
    · exact Or.inr (hstep reply hs)

/-! ## The row that is kept -/

/-- The row of a bootstrap of the set that bears an OCID and is active or completed. -/
structure Kept (id F : String) (row : OperationRow) : Prop where
  certificate : row.certificateId = id
  type : row.operationType = .bootstrap
  fingerprint : row.localFingerprint = some F
  ocid : row.ociCertificateOcid.isSome = true
  state : row.active = true ∨ row.state = .completed

/-- The operation gives no bootstrap of the set a terminal state but COMPLETED. -/
def Spares (id : String) (db : Database) (op : Op) : Prop :=
  ∀ operationId t, op = .sql (.updateOperation operationId t) → t.state.isTerminal = true → t.state = .completed ∨
    ∀ row ∈ db.operations.rows, row.operationId = operationId → row.certificateId = id → row.operationType ≠ .bootstrap

theorem kept_rewritten {db : Database} {op : Op} (hop : Spares id db op) {r r' : OperationRow} (hr : r ∈ db.operations.rows)
    (h : Rewritten op r r') (hk : Kept id F r) : Kept id F r' := by
  cases h with
  | same => exact hk
  | closed _ hid hc hty hF ho hstate =>
    exact ⟨hc.trans hk.certificate, hty.trans hk.type, hF.trans hk.fingerprint, by rw [ho]; exact hk.ocid, Or.inr hstate⟩
  | transitioned t hup =>
    refine ⟨hk.certificate, hk.type, hk.fingerprint, ?_, ?_⟩
    · show (t.ociCertificateOcid.or r.ociCertificateOcid).isSome = true
      rw [Option.isSome_or, hk.ocid, Bool.or_true]
    · by_cases hterminal : t.state.isTerminal = true
      · rcases hop _ t hup hterminal with hcompleted | hother
        · exact Or.inr hcompleted
        · exact absurd hk.type (hother r hr rfl hk.certificate)
      · refine Or.inl ?_
        simpa [OperationRow.active, OperationRow.transition] using hterminal

/-! ## The ledger -/

/-- A ledger with what was performed. -/
abbrev Entered := Ledger × Performed

/-- The calls against the service, with what they create for the set and what they have performed. -/
abbrev entered (Γ : Ctx) (faults : Faults) (id : String) : Env publisher Exc Entered :=
  chronicling (truthful id (entering id (service Γ faults)))

/-- The operation rows of the ledger's world. -/
def rowsOf (l : Ledger) : List OperationRow := l.world.database.operations.rows

section Steps

variable {s s' : Entered} {op : Op} {answer : Except Exc op.Reply}

theorem persisting_of_entered (h : entered Γ faults id s op answer s') :
    persisting faults.observing s.1.world.database op answer s'.1.world.database :=
  persisting_of_service h.1.1.1

theorem entries_of_entered (h : entered Γ faults id s op answer s') : s'.2 = s.2 ++ [(s.1, ⟨op, answer⟩)] := h.2

theorem creations_of_step {w w' : World} {reply : op.Reply} (h : w.Step Γ op reply w') (hop : op.creates = false) :
    w'.creations = w.creations := by
  unfold World.creations
  cases op with
  | createImportedCertificate => cases hop
  | uploadPendingVersion =>
    obtain ⟨r, r', v, -, -, -, rfl⟩ := h
    simp [Mutation.createdOcid]
  | promoteCurrent =>
    obtain ⟨r, r', -, -, rfl⟩ := h
    simp [Mutation.createdOcid]
  | scheduleVersionDeletion =>
    obtain ⟨r, -, rfl⟩ := h
    simp [Mutation.createdOcid]
  | _ => rw [(World.Step.certificates h rfl).2]

/-- Nothing is entered but what is created while the operation started last is of the set. -/
theorem created_same (h : entered Γ faults id s op answer s')
    (hop : op.creates = true → s.1.world.lastStarted ≠ some id) : s'.1.created = s.1.created := by
  obtain ⟨⟨⟨hservice, hentered⟩, -⟩, -⟩ := h
  rw [hentered]
  split
  · rename_i hlast
    have hno : op.creates = false := by
      by_contra hc
      exact hop (by simpa using hc) hlast
    have hsame : s'.1.world.creations = s.1.world.creations := by
      rcases service_cases hservice with ⟨-, hw⟩ | hw | ⟨reply, hstep⟩
      · rw [hw]
        rfl
      · rw [hw]
      · exact creations_of_step hstep hno
    rw [hsame, List.drop_length, List.append_nil]
  · rw [List.append_nil]

/-- An operation that inserts no row leaves the set whose operation was started last. -/
theorem lastStarted_same (h : entered Γ faults id s op answer s') (hop : inserts op = false) :
    s'.1.world.lastStarted = s.1.world.lastStarted := by
  obtain ⟨f, hrows, hf⟩ := rows_of_persisting (persisting_of_entered h) hop
  unfold World.lastStarted
  rw [hrows, List.getLast?_map, Option.map_map]
  congr 1
  funext r
  exact rewritten_certificateId (hf r)

end Steps

/-! ## A call that goes as it should -/

/-- What has to go well for a call not to create twice. -/
structure Fine (Γ : Ctx) (config : AppConfig) (id F : String) (es : Performed) : Prop where
  lineage : ∀ x ∈ es, ∀ material ∈ loadedLineage id x.2, certificateSha256 material.leaf = F
  followed : ∀ n < es.length, ∀ x ∈ es[n]?, Created id x → Followed Γ config id F ((es.drop (n + 1)).map (·.2))

theorem followed_of_append {t u : Trace} (h : Followed Γ config id F (t ++ u)) : Followed Γ config id F t := by
  have hget : ∀ {γ : Type} {f : Event publisher Exc → Option γ} {n : Nat} {y : γ}, y ∈ t[n]?.bind f →
      y ∈ (t ++ u)[n]?.bind f := by
    intro γ f n y hy
    obtain ⟨e, he, hfe⟩ := Option.bind_eq_some_iff.1 hy
    obtain ⟨hn, -⟩ := List.getElem?_eq_some_iff.1 he
    rw [List.getElem?_append_left hn, he]
    exact hfe
  refine ⟨fun e he => h.recorded e ?_, fun x hx => h.read x (hget hx), fun bundle hbundle now hnow =>
    h.current bundle (hget hbundle) now (hget hnow)⟩
  rw [List.take_append]
  exact List.mem_append_left _ he

theorem fine_of_append {c d : Performed} (h : Fine Γ config id F (c ++ d)) : Fine Γ config id F c := by
  refine ⟨fun x hx => h.lineage x (List.mem_append_left _ hx), fun n hn x hx hcreated => ?_⟩
  have hfollowed := h.followed n (by rw [List.length_append]; omega) x (by rw [List.getElem?_append_left hn]; exact hx) hcreated
  rw [List.drop_append_of_le_length hn, List.map_append] at hfollowed
  exact followed_of_append hfollowed

theorem fine_of_entered {s s' : Entered} {op : Op} {answer : Except Exc op.Reply} (h : entered Γ faults id s op answer s')
    (hs : Fine Γ config id F s'.2) : Fine Γ config id F s.2 := by
  rw [entries_of_entered h] at hs
  exact fine_of_append hs

/-- What follows a creation in the entries of a call. -/
theorem followed_at {past post : Performed} {x : Ledger × Event publisher Exc} (h : Fine Γ config id F (past ++ x :: post))
    (hx : Created id x) : Followed Γ config id F (post.map (·.2)) := by
  have hfollowed := h.followed past.length (by simp) x (by simp) hx
  have hpost : (past ++ x :: post).drop (past.length + 1) = post := by simp
  rwa [hpost] at hfollowed

/-- The fact about the ledger, where the call went as it should. -/
def Under (Γ : Ctx) (config : AppConfig) (id F : String) (ψ : Ledger → Prop) (s : Entered) : Prop :=
  Fine Γ config id F s.2 → ψ s.1

/-- Nothing was created for the set, or once, and the row of that bootstrap is kept. -/
def Tracked (id F : String) (l : Ledger) : Prop :=
  l.created = [] ∨ (l.created.length = 1 ∧ ∃ row ∈ rowsOf l, Kept id F row)

/-- A call that went as it should has not created twice, wherever it is cut; if it was not cut before its record, the creation can be
found again. -/
def Cut (Γ : Ctx) (config : AppConfig) (id F : String) (s : Entered) : Prop :=
  Fine Γ config id F s.2 → s.1.created.length ≤ 1 ∧ (Settled id s.2 → Tracked id F s.1)

theorem cut_of_tracked {s : Entered} (h : Under Γ config id F (Tracked id F) s) : Cut Γ config id F s := by
  intro hs
  refine ⟨?_, fun _ => h hs⟩
  rcases h hs with hnone | ⟨hone, -⟩
  · rw [hnone]
    exact Nat.zero_le 1
  · rw [hone]

/-! ## Frames -/

/-- The fact depends on what was created and on the operation rows. -/
def Steady (ψ : Ledger → Prop) : Prop := ∀ l l', l'.created = l.created → rowsOf l' = rowsOf l → ψ l → ψ l'

/-- The fact also holds where there are more rows. -/
def Growing (ψ : Ledger → Prop) : Prop :=
  ∀ l l', l'.created = l.created → (∀ row ∈ rowsOf l, row ∈ rowsOf l') → ψ l → ψ l'

theorem Growing.steady {ψ : Ledger → Prop} (h : Growing ψ) : Steady ψ := by
  intro l l' hcreated hrows
  exact h l l' hcreated fun row hrow => by rw [hrows]; exact hrow

theorem growing_tracked : Growing (Tracked id F) := by
  rintro l l' hcreated hrows (hnone | ⟨hone, row, hrow, hk⟩)
  · exact Or.inl (hcreated.trans hnone)
  · exact Or.inr ⟨by rw [hcreated]; exact hone, row, hrows row hrow, hk⟩

/-- Nothing was created for the set. -/
def Unmade (l : Ledger) : Prop := l.created = []

theorem growing_unmade : Growing Unmade := fun _ _ hcreated _ h => hcreated.trans h

theorem tracked_of_unmade {l : Ledger} (h : Unmade l) : Tracked id F l := Or.inl h

/-- The operation writes no operation row and creates no OCI certificate. -/
def unentered (op : Op) : Prop := op.passive ∧ op.creates = false

theorem unentered_of_idle (op : Op) (h : op.idle = true) : unentered op :=
  ⟨passive_of_idle op h, by cases op <;> first | rfl | cases h⟩

/-- The operation creates no OCI certificate, and gives no row a terminal state but COMPLETED. -/
def harmless (op : Op) : Prop :=
  op.creates = false ∧ ∀ operationId t, op = .sql (.updateOperation operationId t) → t.state.isTerminal = true →
    t.state = .completed

theorem harmless_of_idle (op : Op) (h : op.idle = true) : harmless op := by
  refine ⟨(unentered_of_idle op h).2, ?_⟩
  rintro operationId t rfl
  cases h

theorem harmless_of_not_sql {op : Op} (hcreates : op.creates = false) (hsql : op.isSql = false) : harmless op := by
  refine ⟨hcreates, ?_⟩
  rintro operationId t rfl
  cases hsql

/-- The operation inserts no row, and updates none but that of the operation. -/
def rowOnly (operationId : String) : Op → Bool
  | .sql (.updateOperation id _) => id = operationId
  | .sql (.insertOperation _) => false
  | _ => true

theorem rowOnly_of_quiet {certificateId : String} (op : Op) (h : op.quiet certificateId operationId = true) :
    rowOnly operationId op = true ∧ op.creates = false := by
  rw [Op.quiet, Bool.or_eq_true] at h
  rcases h with h | h
  · refine ⟨?_, (unentered_of_idle op h).2⟩
    cases op with
    | sql statement => cases statement <;> first | rfl | cases h
    | _ => rfl
  · cases op with
    | sql statement => cases statement <;> first | exact ⟨rfl, rfl⟩ | exact ⟨h, rfl⟩
    | _ => first | exact ⟨rfl, rfl⟩ | cases h

theorem inserts_of_rowOnly {op : Op} (h : rowOnly operationId op = true) : inserts op = false := by
  cases op with
  | sql statement => cases statement <;> first | rfl | cases h
  | _ => rfl

section Steps

variable {s s' : Entered} {op : Op} {answer : Except Exc op.Reply}

theorem under_steps {A : Op → Prop} {ψ : Ledger → Prop} {p : Action α} (hp : p.Uses A)
    (h : ∀ s op answer s', A op → entered Γ faults id s op answer s' → ψ s.1 → ψ s'.1) :
    Triple (entered Γ faults id) (Under Γ config id F ψ) p (fun _ => Under Γ config id F ψ) (fun _ => Under Γ config id F ψ)
      (Under Γ config id F ψ) :=
  Triple.frame hp fun s op answer s' hop hs hstep hfine =>
    h s op answer s' hop hstep (hs (fine_of_entered hstep hfine))

theorem steady_step {ψ : Ledger → Prop} (hψ : Steady ψ) (hop : unentered op) (h : entered Γ faults id s op answer s')
    (hs : ψ s.1) : ψ s'.1 := by
  refine hψ s.1 s'.1 (created_same h fun hc => ?_) ?_ hs
  · rw [hop.2] at hc
    cases hc
  · unfold rowsOf
    rw [operations_of_passive hop.1 (persisting_of_entered h)]

theorem under_frame {ψ : Ledger → Prop} (hψ : Steady ψ) {p : Action α} (hp : p.Uses unentered) :
    Triple (entered Γ faults id) (Under Γ config id F ψ) p (fun _ => Under Γ config id F ψ) (fun _ => Under Γ config id F ψ)
      (Under Γ config id F ψ) :=
  under_steps hp fun _ _ _ _ hop h hs => steady_step hψ hop h hs

theorem mem_of_inserts {r : OperationRow} {db db' : Database} (h : persisting faults db op answer db') (hop : inserts op = true)
    (hr : r ∈ db.operations.rows) : r ∈ db'.operations.rows := by
  cases op with
  | sql statement =>
    cases statement with
    | insertOperation row =>
      rcases rows_of_insert h with ⟨-, hrows⟩ | hrows
      · rw [hrows]
        exact hr
      · rw [hrows]
        exact List.mem_append_left _ hr
    | _ => cases hop
  | _ => cases hop

theorem tracked_step (h : entered Γ faults id s op answer s') (hcreates : op.creates = true → s.1.world.lastStarted ≠ some id)
    (hspares : Spares id s.1.world.database op) (hs : Tracked id F s.1) : Tracked id F s'.1 := by
  have hcreated := created_same h hcreates
  rcases hs with hnone | ⟨hone, row, hrow, hk⟩
  · exact Or.inl (hcreated.trans hnone)
  · refine Or.inr ⟨by rw [hcreated]; exact hone, ?_⟩
    cases hins : inserts op with
    | true => exact ⟨row, mem_of_inserts (persisting_of_entered h) hins hrow, hk⟩
    | false =>
      obtain ⟨row', hrow', hrewritten⟩ := exists_rewritten (persisting_of_entered h) hins hrow
      exact ⟨row', hrow', kept_rewritten hspares hrow hrewritten hk⟩

/-- The row of the operation is there, and is of no bootstrap of the set. -/
def Aside (id F operationId : String) (l : Ledger) : Prop :=
  Tracked id F l ∧ ∃ row ∈ rowsOf l, row.operationId = operationId ∧ (row.certificateId = id → row.operationType ≠ .bootstrap)

theorem aside_step (h : entered Γ faults id s op answer s') (hop : rowOnly operationId op = true)
    (hcreates : op.creates = true → s.1.world.lastStarted ≠ some id) (hs : Aside id F operationId s.1) :
    Aside id F operationId s'.1 := by
  obtain ⟨htracked, row, hrow, hid, hother⟩ := hs
  obtain ⟨row', hrow', hrewritten⟩ := exists_rewritten (persisting_of_entered h) (inserts_of_rowOnly hop) hrow
  refine ⟨tracked_step h hcreates ?_ htracked, row', hrow', (rewritten_operationId hrewritten).trans hid, ?_⟩
  · rintro id' t rfl -
    refine Or.inr fun r hr hrid hc => ?_
    obtain rfl : r = row := Table.eq_of_key_eq hr hrow (hrid.trans ((of_decide_eq_true hop).trans hid.symm))
    exact hother hc
  · rw [rewritten_certificateId hrewritten, rewritten_operationType hrewritten]
    exact hother

end Steps

/-- The set keeps its record, however the program ends. -/
abbrev Tracks (Γ : Ctx) (faults : Faults) (config : AppConfig) (id F : String) (p : Action α) : Prop :=
  Triple (entered Γ faults id) (Under Γ config id F (Tracked id F)) p (fun _ => Under Γ config id F (Tracked id F))
    (fun _ => Under Γ config id F (Tracked id F)) (Under Γ config id F (Tracked id F))

theorem tracks_of_uses {p : Action α} (hp : p.Uses harmless) : Tracks Γ faults config id F p := by
  refine under_steps hp fun s op answer s' hop h hs => tracked_step h (fun hc => ?_) ?_ hs
  · rw [hop.1] at hc
    cases hc
  · exact fun operationId t hup hterminal => Or.inl (hop.2 operationId t hup hterminal)

theorem tracks_idle {p : Action α} (hp : p.Uses fun op : Op => op.idle = true) : Tracks Γ faults config id F p :=
  tracks_of_uses (hp.mono harmless_of_idle)

theorem aside_frame {p : Action α} (hp : p.Uses fun op : Op => rowOnly operationId op = true ∧ op.creates = false) :
    Triple (entered Γ faults id) (Under Γ config id F (Aside id F operationId)) p
      (fun _ => Under Γ config id F (Aside id F operationId)) (fun _ => Under Γ config id F (Aside id F operationId))
      (Under Γ config id F (Aside id F operationId)) :=
  under_steps hp fun s op answer s' hop h hs => aside_step h hop.1 (fun hc => by rw [hop.2] at hc; cases hc) hs

/-- A program on behalf of an operation of another set may create. -/
theorem foreign_frame {p : Action α} (hp : p.Uses fun op => rowOnly operationId op = true) :
    Triple (entered Γ faults id) (Under Γ config id F fun l => Aside id F operationId l ∧ l.world.lastStarted ≠ some id) p
      (fun _ => Under Γ config id F fun l => Aside id F operationId l ∧ l.world.lastStarted ≠ some id)
      (fun _ => Under Γ config id F fun l => Aside id F operationId l ∧ l.world.lastStarted ≠ some id)
      (Under Γ config id F fun l => Aside id F operationId l ∧ l.world.lastStarted ≠ some id) := by
  refine under_steps hp fun s op answer s' hop h hs => ⟨aside_step h hop (fun _ => hs.2) hs.1, ?_⟩
  rw [lastStarted_same h (inserts_of_rowOnly hop)]
  exact hs.2

/-! ## The operations of the other services -/

/-- The row of the operation is there, and the operation was the last to be started. -/
structure Opened (certificateId operationId : String) (operationType : OperationType) (localFingerprint : Option String)
    (l : Ledger) : Prop where
  last : l.world.lastStarted = some certificateId
  row : ∃ row ∈ rowsOf l, row.operationId = operationId ∧ row.certificateId = certificateId ∧
    row.operationType = operationType ∧ row.localFingerprint = localFingerprint ∧ row.active = true

/-- A started operation has its row, which is the last one. -/
theorem startOperation_spec {ψ : Ledger → Prop} (hψ : Growing ψ) (certificateId : String) (operationType : OperationType)
    (localFingerprint ocid : Option String) :
    Triple (entered Γ faults id) (Under Γ config id F ψ)
      (StateStore.startOperation certificateId operationType localFingerprint ocid)
      (fun operation => Under Γ config id F fun l =>
        ψ l ∧ Opened certificateId operation.operationId operationType localFingerprint l)
      (fun _ => Under Γ config id F ψ) (Under Γ config id F ψ) := by
  refine Triple.bind (under_frame hψ.steady (Program.uses_perform.2 (unentered_of_idle _ rfl))) fun operationId => ?_
  refine Triple.bind (under_frame hψ.steady (StateStore.uses_utcNow (unentered_of_idle _ rfl))) fun started => ?_
  have hkeep : ∀ (row : OperationRow) (s : Entered) answer s', Under Γ config id F ψ s →
      entered Γ faults id s (.sql (.insertOperation row)) answer s' → Under Γ config id F ψ s' := by
    intro row s answer s' hs h hfine
    exact hψ s.1 s'.1 (created_same h nofun) (fun r hr => mem_of_inserts (persisting_of_entered h) rfl hr)
      (hs (fine_of_entered h hfine))
  refine Triple.bind (R := fun _ => Under Γ config id F fun l =>
    ψ l ∧ Opened certificateId operationId operationType localFingerprint l) ?_
    fun _ => Triple.ret (fun _ hs => hs) fun _ hs hfine => (hs hfine).1
  refine Triple.perform (fun _ hs => hs) (fun s reply s' hs h => ⟨fun hfine => ⟨hkeep _ s _ s' hs h hfine, ?_⟩,
    hkeep _ s _ s' hs h⟩) fun s x s' hs h => ⟨hkeep _ s _ s' hs h, hkeep _ s _ s' hs h⟩
  rcases rows_of_insert (persisting_of_entered h) with ⟨hne, -⟩ | hrows
  · exact absurd rfl hne
  · refine ⟨?_, ?_⟩
    · unfold World.lastStarted
      rw [hrows, List.getLast?_append_of_ne_nil _ (List.cons_ne_nil _ _)]
      rfl
    · unfold rowsOf
      rw [hrows]
      exact ⟨_, List.mem_append_right _ (List.mem_singleton_self _), rfl, rfl, rfl, rfl, by rfl⟩

/-- An operation that is no bootstrap writes its own row. -/
theorem tracks_started {certificateId : String} {operationType : OperationType} {localFingerprint ocid : Option String}
    {f : Operation → Action β} (hty : operationType ≠ .bootstrap)
    (hf : ∀ operation : Operation, (f operation).Uses fun op : Op =>
      rowOnly operation.operationId op = true ∧ op.creates = false) :
    Tracks Γ faults config id F
      ((StateStore.startOperation certificateId operationType localFingerprint ocid).bind f) := by
  refine Triple.bind (startOperation_spec growing_tracked certificateId operationType localFingerprint ocid) fun operation => ?_
  refine (aside_frame (hf operation)).conseq (fun s hs hfine => ?_) (fun _ _ hs hfine => (hs hfine).1)
    (fun _ _ hs hfine => (hs hfine).1) fun _ hs hfine => (hs hfine).1
  obtain ⟨htracked, hopened⟩ := hs hfine
  obtain ⟨row, hrow, hid, -, htype, -⟩ := hopened.row
  exact ⟨htracked, row, hrow, hid, fun _ => by rw [htype]; exact hty⟩

theorem tracks_bind {p : Action α} {f : α → Action β} (hp : Tracks Γ faults config id F p)
    (hf : ∀ a, Tracks Γ faults config id F (f a)) : Tracks Γ faults config id F (p.bind f) :=
  Triple.bind hp hf

theorem tracks_ofExcept {e : Except Exc α} : Tracks Γ faults config id F (ofExcept e) :=
  tracks_of_uses uses_ofExcept

theorem tracks_perform {op : Op} (hop : op.idle = true) : Tracks Γ faults config id F (perform op) :=
  tracks_idle (Program.uses_perform.2 hop)

theorem tracks_attempt {p : Action α} (hp : Tracks Γ faults config id F p) : Tracks Γ faults config id F p.attempt :=
  (Triple.attempt hp (fun _ _ hs => hs) fun _ _ hs => hs).post fun r s hs => by
    cases r <;> exact hs

theorem tracks_raise {x : Exc} : Tracks Γ faults config id F (.raise x : Action α) :=
  Triple.raise (fun _ hs => hs) fun _ hs => hs

theorem tracks_ret {a : α} : Tracks Γ faults config id F (.ret a) := Triple.ret (fun _ hs => hs) fun _ hs => hs

theorem rowOnly_of_observes (op : Op) (h : op.observes = true) : rowOnly operationId op = true ∧ op.creates = false := by
  cases op <;> first | exact ⟨rfl, rfl⟩ | cases h

theorem rowOnly_of_recordsAudit (op : Op) (h : StateStore.recordsAudit op = true) :
    rowOnly operationId op = true ∧ op.creates = false := by
  cases op with
  | sql statement => cases statement <;> first | exact ⟨rfl, rfl⟩ | cases h
  | _ => cases h

theorem tracks_audit (certificateId : String) :
    Tracks Γ faults config id F (PublicationService.audit Γ settings passes certificateId) := by
  refine tracks_bind tracks_ofExcept fun certificate => ?_
  split
  · exact tracks_raise
  · refine tracks_bind (tracks_idle (PublicationService.uses_openPorts fun _ h => h)) fun _ => ?_
    exact tracks_started nofun fun operation => PublicationService.uses_auditStarted
      (@rowOnly_of_quiet operation.operationId certificate.id) rowOnly_of_observes rowOnly_of_recordsAudit _ _

theorem tracks_rollback (certificateId : String) :
    Tracks Γ faults config id F (PublicationService.rollback Γ settings passes certificateId) := by
  refine tracks_bind tracks_ofExcept fun certificate => ?_
  refine tracks_bind (tracks_idle (PublicationService.uses_openPorts fun _ h => h)) fun _ => ?_
  refine tracks_bind (tracks_perform rfl) fun now => ?_
  refine tracks_bind (tracks_idle (PublicationService.uses_auditService fun _ h => h)) fun _ => ?_
  unfold RollbackService.rollback
  split
  · exact tracks_raise
  · exact tracks_started nofun fun operation => RollbackService.uses_restore
      (@rowOnly_of_quiet operation.operationId certificate.id) rowOnly_of_observes fun _ _ _ => ⟨rfl, rfl⟩

theorem tracks_runPostPublicationAudit :
    Tracks Γ faults config id F (PublicationService.runPostPublicationAudit Γ settings passes certificate) := by
  unfold PublicationService.runPostPublicationAudit PublicationService.enforcePostPublicationAudit
  split
  · exact tracks_ret
  · split
    · exact tracks_ret
    · refine tracks_bind (Triple.handle (tracks_audit certificate.id) fun x => ?_) fun successful => ?_
      · split
        · exact tracks_ret
        · exact tracks_raise
      · split
        · exact tracks_ret
        · split
          · exact tracks_raise
          · refine tracks_bind (tracks_attempt (tracks_rollback certificate.id)) fun outcome => ?_
            cases outcome with
            | ok _ => exact tracks_ret
            | error x =>
              simp only
              split
              · exact tracks_bind (tracks_perform rfl) fun _ => tracks_raise
              · exact tracks_raise
  · refine Triple.handle (tracks_bind (tracks_audit certificate.id) fun _ => tracks_ret) fun x => ?_
    split
    · exact tracks_ret
    · exact tracks_raise

/-- A publication starts no bootstrap. -/
theorem tracks_publish (certificateId : String) {operationType : OperationType} (hty : operationType ≠ .bootstrap) :
    Tracks Γ faults config id F (PublicationService.publish Γ settings passes certificateId operationType) := by
  refine tracks_bind tracks_ofExcept fun certificate => ?_
  refine tracks_bind (tracks_idle (PublicationService.uses_requireProductionQualification fun _ h => h)) fun _ => ?_
  refine tracks_bind (tracks_perform rfl) fun material => ?_
  refine tracks_bind (tracks_perform rfl) fun validated => ?_
  refine tracks_bind tracks_ofExcept fun fingerprint => ?_
  refine tracks_bind (tracks_idle (uses_buildChain fun _ h => h)) fun chain => ?_
  refine tracks_bind (tracks_perform rfl) fun _ => ?_
  refine tracks_bind (tracks_idle (PublicationService.uses_openPorts fun _ h => h)) fun _ => ?_
  refine tracks_bind (tracks_perform rfl) fun now => ?_
  refine tracks_bind ?_ fun result => ?_
  · unfold PublicationReconciler.publish
    split
    · exact tracks_raise
    · exact tracks_started hty fun operation => PublicationReconciler.uses_reconcile rowOnly_of_quiet
        (fun _ _ _ => ⟨rfl, rfl⟩) fun _ _ _ => ⟨rfl, rfl⟩
  refine tracks_bind (tracks_perform rfl) fun _ => ?_
  refine tracks_bind tracks_runPostPublicationAudit fun _ => ?_
  refine tracks_bind (tracks_of_uses ?_) fun _ => tracks_ret
  exact PublicationService.uses_runPostPublicationRetention harmless_of_idle fun _ _ _ _ _ => harmless_of_not_sql rfl rfl

theorem harmless_of_issue : (NativeAcmeService.issue Γ settings certificate false).Uses harmless :=
  NativeAcmeService.uses_issue harmless_of_idle (fun _ _ => harmless_of_not_sql rfl rfl)
    (fun _ _ => harmless_of_not_sql rfl rfl) (fun _ => harmless_of_not_sql rfl rfl) false

theorem tracks_renew (certificateId : String) :
    Tracks Γ faults config id F (PublicationService.renew Γ settings passes certificateId false) := by
  refine tracks_bind tracks_ofExcept fun certificate => ?_
  refine tracks_bind (tracks_idle (PublicationService.uses_requireProductionQualification fun _ h => h)) fun _ => ?_
  refine tracks_bind (tracks_idle (PublicationService.uses_runPreflight fun _ h => h)) fun _ => ?_
  refine tracks_bind (tracks_idle (PublicationService.uses_beforeFingerprint fun _ h => h)) fun _ => ?_
  refine tracks_bind (tracks_perform rfl) fun _ => ?_
  refine tracks_bind (tracks_of_uses harmless_of_issue) fun _ => ?_
  refine tracks_bind (tracks_perform rfl) fun _ => ?_
  exact tracks_publish certificateId nofun

end OneCreation

end OciAcmePublisher
