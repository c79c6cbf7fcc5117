import OciAcmePublisher.Lemmas.StateStore

/-!
# The row of a run and the rows of the others

A run writes the row it has inserted and, until it closes interrupted rows, no other: the rows of the other operations stay as they
were found, and the run's own row is in the state of its last transition.
-/

namespace OciAcmePublisher

open Effects Tables

/-- The rows of the other operations. -/
def Database.others (db : Database) (operationId : String) : List OperationRow :=
  db.operations.rows.filter fun r => r.operationId ≠ operationId

/-- The operation writes operation rows. -/
def Op.writesRows : Op → Bool
  | .sql (.insertOperation _) | .sql (.updateOperation ..) | .sql (.completeReconciled ..)
  | .sql (.completeInterruptedAudits ..) => true
  | _ => false

/-- The operation writes no operation row. -/
def Op.passive (op : Op) : Prop := op.writesRows = false

theorem passive_of_idle (op : Op) (h : op.idle = true) : op.passive := by
  cases op with
  | sql statement => cases statement <;> first | rfl | cases h
  | _ => rfl

theorem passive_of_records (op : Op) (h : StateStore.records op = true) : op.passive :=
  passive_of_idle op (idle_of_records op h)

theorem passive_of_pauses (op : Op) (h : pauses op = true) : op.passive := passive_of_idle op (idle_of_pauses op h)

theorem passive_of_observes (op : Op) (h : op.observes = true) : op.passive := by
  cases op <;> first | rfl | cases h

variable {faults : Faults} {α : Type} {operationId : String}

/-- An operation that writes no operation row keeps them. -/
theorem operations_of_passive {op : Op} {answer : Except Exc op.Reply} {db db' : Database} (hop : op.passive)
    (h : persisting faults db op answer db') : db'.operations = db.operations := by
  have hsql : ∀ s : Statement, (Op.sql s).passive → ∀ reply, db.Step s reply db' → db'.operations = db.operations := by
    intro s hs reply hstep
    cases s with
    | insertOperation | updateOperation | completeReconciled | completeInterruptedAudits => cases hs
    | selectActive | selectConfirmedOcid | selectAlert => rw [hstep.1]
    | upsertFacts | upsertAlert => rw [hstep]
  have hmatch := h.2
  cases op with
  | sql s =>
    cases answer with
    | ok reply => exact hsql s hop reply hmatch
    | error x =>
      rcases (show db' = db ∨ ∃ reply, db.Step s reply db' from hmatch) with rfl | ⟨reply, hs⟩
      · rfl
      · exact hsql s hop reply hs
  | _ => rw [show db' = db from hmatch]

/-- The update of one row keeps the others. -/
theorem others_update {db : Database} {f : OperationRow → OperationRow} {hf : ∀ r, (f r).operationId = r.operationId} :
    (db.updateOperations (fun r => r.operationId = operationId) f hf).others operationId = db.others operationId := by
  have hrows : (db.updateOperations (fun r => r.operationId = operationId) f hf).operations.rows =
      db.operations.rows.map fun r => if decide (r.operationId = operationId) = true then f r else r :=
    Table.rows_updateWhere _ _ _ hf
  unfold Database.others
  rw [hrows]
  induction db.operations.rows with
  | nil => rfl
  | cons r rest ih =>
    by_cases h : r.operationId = operationId
    · simp only [List.map_cons, h, decide_true, if_true, List.filter_cons, hf, ne_eq, not_true_eq_false, decide_false,
        Bool.false_eq_true, if_false]
      exact ih
    · simp only [List.map_cons, h, decide_false, Bool.false_eq_true, if_false, List.filter_cons, ne_eq, not_false_eq_true,
        decide_true, if_true]
      rw [ih]

/-! ## The state of the run's own row -/

/-- The rows of the other operations are `rows`; the own row is there and as `φ` says. -/
structure Owns (operationId : String) (rows : List OperationRow) (φ : OperationRow → Prop) (db : Database) : Prop where
  others : db.others operationId = rows
  own : ∃ row ∈ db.operations.rows, row.operationId = operationId ∧ φ row

variable {rows : List OperationRow} {φ ψ : OperationRow → Prop}

theorem Owns.imp {db : Database} (h : Owns operationId rows φ db) (hφ : ∀ r, φ r → ψ r) : Owns operationId rows ψ db := by
  obtain ⟨hothers, row, hrow, hid, hp⟩ := h
  exact ⟨hothers, row, hrow, hid, hφ row hp⟩

/-- Every row is one of the others or the own one. -/
theorem Owns.cases {db : Database} (h : Owns operationId rows φ db) {row : OperationRow} (hrow : row ∈ db.operations.rows) :
    row ∈ rows ∨ (row.operationId = operationId ∧ φ row) := by
  obtain ⟨hothers, own, hown, hid, hp⟩ := h
  by_cases hr : row.operationId = operationId
  · obtain rfl : row = own := Table.eq_of_key_eq hrow hown (hr.trans hid.symm)
    exact Or.inr ⟨hr, hp⟩
  · rw [← hothers]
    exact Or.inl (List.mem_filter.2 ⟨hrow, decide_eq_true hr⟩)

theorem Owns.mem {db : Database} (h : Owns operationId rows φ db) {row : OperationRow} (hrow : row ∈ rows) :
    row ∈ db.operations.rows ∧ row.operationId ≠ operationId := by
  rw [← h.others] at hrow
  obtain ⟨hmem, hne⟩ := List.mem_filter.1 hrow
  exact ⟨hmem, of_decide_eq_true hne⟩

/-- A program that writes no row. -/
theorem owns_frame {p : Action α} (hp : p.Uses Op.passive) :
    Triple (persisting faults) (Owns operationId rows φ) p (fun _ => Owns operationId rows φ)
      (fun _ => Owns operationId rows φ) (Owns operationId rows φ) := by
  refine Triple.frame hp fun db op answer db' hop hdb h => ?_
  have heq := operations_of_passive hop h
  refine ⟨?_, by rw [heq]; exact hdb.own⟩
  unfold Database.others
  rw [heq]
  exact hdb.others

/-- What a transition makes of the own row. -/
theorem Owns.transition {db : Database} (h : Owns operationId rows φ db) (t : Transition) :
    Owns operationId rows (fun row => ∃ r, φ r ∧ row = r.transition t)
      (db.updateOperations (fun r => r.operationId = operationId) (fun r => r.transition t) fun _ => rfl) := by
  obtain ⟨hothers, row, hrow, hid, hp⟩ := h
  exact ⟨others_update.trans hothers, row.transition t,
    mem_updateOperations.2 (Or.inl ⟨row, hrow, decide_eq_true hid, rfl⟩), hid, row, hp, rfl⟩

/-- Where a row is new, it is the run's own. -/
theorem owns_insert {db db' : Database} {row : OperationRow} {reply : Unit} (h : db.Step (.insertOperation row) reply db') :
    Owns row.operationId db.operations.rows (fun r => r = row) db' ∧
      ∀ r ∈ db.operations.rows, r.operationId ≠ row.operationId := by
  obtain ⟨t, ht, rfl⟩ := h
  obtain ⟨hfresh, hrows⟩ := Table.insert_eq_some_iff.1 ht
  have hne : ∀ r ∈ db.operations.rows, r.operationId ≠ row.operationId := by
    intro r hr heq
    exact hfresh (List.mem_map.2 ⟨r, hr, heq⟩)
  refine ⟨⟨?_, row, ?_, rfl, rfl⟩, hne⟩
  · show t.rows.filter _ = _
    rw [hrows, List.filter_append, List.filter_eq_self.2 fun r hr => decide_eq_true (hne r hr)]
    simp
  · show row ∈ t.rows
    rw [hrows]
    exact List.mem_append_right _ (List.mem_singleton_self _)

/-- The row is of this certificate and type, in this state, and dated where the state is terminal. -/
structure OperationRow.Is (certificateId : String) (operationType : OperationType) (state : OperationState)
    (row : OperationRow) : Prop where
  certificate : row.certificateId = certificateId
  type : row.operationType = operationType
  reached : row.state = state
  dated : row.completedAt.isSome = state.isTerminal

/-- What a statement of the store may raise: what the database raises, or that the row is missing. -/
def Unmet (faults : Faults) (x : Exc) : Prop := (∃ op, faults op x) ∨ x = .of .keyError "operation does not exist"

variable {certificateId : String} {operationType : OperationType} {state : OperationState}

/-- A program that writes no row, and whose exceptions do not matter. -/
theorem owns_aside {E : Exc → Database → Prop} {p : Action α} (hp : p.Uses Op.passive)
    (hE : ∀ x db, Owns operationId rows φ db → E x db) :
    Triple (persisting faults) (Owns operationId rows φ) p (fun _ => Owns operationId rows φ) E fun _ => True :=
  (owns_frame hp).conseq (fun _ h => h) (fun _ _ h => h) hE fun _ _ => trivial

/-- Before the run's row is inserted. -/
theorem rows_aside {p : Action α} (hp : p.Uses Op.passive) :
    Triple (persisting faults) (fun db => db.operations.rows = rows) p (fun _ db => db.operations.rows = rows)
      (fun _ _ => True) fun _ => True := by
  have hkeep : ∀ (db : Database) (op : Op) answer db', op.passive → db.operations.rows = rows →
      persisting faults db op answer db' → db'.operations.rows = rows := by
    intro db op answer db' hop hdb h
    rw [operations_of_passive hop h]
    exact hdb
  exact (Triple.frame hp hkeep).conseq (fun _ h => h) (fun _ _ h => h) (fun _ _ _ => trivial) fun _ _ => trivial

/-- One operation that writes no row. -/
theorem owns_perform {op : Op} (hop : op.passive) :
    Triple (persisting faults) (Owns operationId rows φ) (perform op) (fun _ => Owns operationId rows φ)
      (fun x _ => faults op x) fun _ => True := by
  refine Triple.perform (fun _ _ => trivial) (fun db reply db' hdb h => ⟨?_, trivial⟩) fun db x db' _ h => ⟨h.1 x rfl, trivial⟩
  have heq := operations_of_passive hop h
  refine ⟨?_, by rw [heq]; exact hdb.own⟩
  unfold Database.others
  rw [heq]
  exact hdb.others

theorem utcNow_owns :
    Triple (persisting faults) (Owns operationId rows φ) utcNow (fun _ => Owns operationId rows φ)
      (fun x _ => Unmet faults x) fun _ => True := by
  have hnow : Op.passive .now := rfl
  refine Triple.bind ((owns_perform hnow).conseq (fun _ h => h) (fun _ _ h => h) (fun _ _ h => Or.inl ⟨_, h⟩) fun _ h => h)
    fun _ => ?_
  exact Triple.ret (fun _ h => h) fun _ _ => trivial

/-- A transition of the own row. -/
theorem transition_owns {earlier : OperationState} (fields : TransitionFields) :
    Triple (persisting faults) (Owns operationId rows (OperationRow.Is certificateId operationType earlier))
      (StateStore.transition operationId state fields)
      (fun _ => Owns operationId rows (OperationRow.Is certificateId operationType state)) (fun x _ => Unmet faults x)
      fun _ => True := by
  have hdated : Triple (persisting faults) (Owns operationId rows (OperationRow.Is certificateId operationType earlier))
      (StateStore.completedAt state)
      (fun completed db => Owns operationId rows (OperationRow.Is certificateId operationType earlier) db ∧
        completed.isSome = state.isTerminal) (fun x _ => Unmet faults x) fun _ => True := by
    unfold StateStore.completedAt
    split
    · rename_i hterminal
      exact Triple.bind utcNow_owns fun now => Triple.ret (fun _ h => ⟨h, hterminal.symm⟩) fun _ _ => trivial
    · rename_i hterminal
      exact Triple.ret (fun _ h => ⟨h, by simpa using hterminal⟩) fun _ _ => trivial
  refine Triple.bind hdated fun completed => Triple.assume fun hcompleted => ?_
  refine Triple.bind utcNow_owns fun updated => ?_
  refine Triple.bind (R := fun _ => Owns operationId rows (OperationRow.Is certificateId operationType state)) ?_
    fun count => ?_
  · refine Triple.statement (fun _ _ => trivial) (fun db reply db' h hstep => ⟨?_, trivial⟩)
      (fun _ _ _ hx => Or.inl ⟨_, hx⟩) fun _ _ _ _ _ _ hx => Or.inl ⟨_, hx⟩
    rw [hstep.2]
    refine (h.transition _).imp ?_
    rintro row ⟨r, hr, rfl⟩
    exact ⟨hr.certificate, hr.type, rfl, hcompleted⟩
  · split
    · exact Triple.ret (fun _ h => h) fun _ _ => trivial
    · exact Triple.raise (fun _ _ => Or.inr rfl) fun _ _ => trivial

/-- A started operation owns its new row. -/
theorem startOperation_owns {localFingerprint ocid : Option String} :
    Triple (persisting faults) (fun db => db.operations.rows = rows)
      (StateStore.startOperation certificateId operationType localFingerprint ocid)
      (fun operation db => Owns operation.operationId rows (OperationRow.Is certificateId operationType .discovered) db ∧
        ∀ r ∈ rows, r.operationId ≠ operation.operationId)
      (fun x _ => Unmet faults x) fun _ => True := by
  have hframe : ∀ op : Op, op.passive → Triple (persisting faults) (fun db => db.operations.rows = rows) (perform op)
      (fun _ db => db.operations.rows = rows) (fun x _ => Unmet faults x) fun _ => True := by
    intro op hop
    refine Triple.perform (fun _ _ => trivial) (fun db reply db' hdb h => ⟨?_, trivial⟩) fun _ x _ _ h => ⟨Or.inl ⟨_, h.1 x rfl⟩, trivial⟩
    rw [operations_of_passive hop h]
    exact hdb
  have hnow : Triple (persisting faults) (fun db => db.operations.rows = rows) utcNow (fun _ db => db.operations.rows = rows)
      (fun x _ => Unmet faults x) fun _ => True :=
    Triple.bind (hframe .now rfl) fun _ => Triple.ret (fun _ h => h) fun _ _ => trivial
  refine Triple.bind (hframe .uuid4 rfl) fun id => ?_
  refine Triple.bind hnow fun started => ?_
  refine Triple.bind (R := fun _ db => Owns id rows (OperationRow.Is certificateId operationType .discovered) db ∧
      ∀ r ∈ rows, r.operationId ≠ id) ?_ fun _ => Triple.ret (fun _ h => h) fun _ _ => trivial
  refine Triple.statement (fun _ _ => trivial) (fun db reply db' hdb hstep => ⟨?_, trivial⟩)
    (fun _ _ _ hx => Or.inl ⟨_, hx⟩) fun _ _ _ _ _ _ hx => Or.inl ⟨_, hx⟩
  obtain ⟨howns, hne⟩ := owns_insert hstep
  rw [hdb] at howns hne
  refine ⟨howns.imp ?_, hne⟩
  rintro r rfl
  exact ⟨rfl, rfl, rfl, rfl⟩

end OciAcmePublisher
