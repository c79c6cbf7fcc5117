import OciAcmePublisher.Effects.Monitor
import OciAcmePublisher.Migrations

/-!
# Interrupted migrations

Any number of attempts to open the state store, each cut or failing anywhere between two statements. Every statement of a version
commits by itself, so an attempt that stops after the first object of a version and before its row leaves the version partly
applied, and the next attempt fails on the object that is there. Where no attempt stops there, migration is restartable.
-/

namespace OciAcmePublisher

open Effects Tables

/-- The objects a version adds, besides the table of the applied versions. -/
def addedBy (statements : List CreateStatement) : List (String × SchemaObject) :=
  (statements.filter (· ≠ createSchemaMeta)).map fun s => (s.name, s.object)

/-- Every statement creates a new object, an index on a table that is there, or is the one of the table of the applied versions. -/
def Accepted : List (String × SchemaObject) → List CreateStatement → Prop
  | _, [] => True
  | there, s :: rest =>
    if s = createSchemaMeta then Accepted there rest
    else s.name ∉ there.map Prod.fst ∧ s.object.fits there = true ∧ Accepted (there ++ [(s.name, s.object)]) rest

instance : ∀ there statements, Decidable (Accepted there statements)
  | _, [] => instDecidableTrue
  | there, s :: rest =>
    have : Decidable (Accepted there rest) := instDecidableAccepted there rest
    have : Decidable (Accepted (there ++ [(s.name, s.object)]) rest) := instDecidableAccepted _ rest
    inferInstanceAs (Decidable (if s = createSchemaMeta then Accepted there rest
      else s.name ∉ there.map Prod.fst ∧ s.object.fits there = true ∧ Accepted (there ++ [(s.name, s.object)]) rest))

/-- The shape of a list of migrations: distinct versions, and statements that can be executed one after the other. -/
structure WellFormedMigrations (migrations : List Migration) : Prop where
  versions : (migrations.map (·.version)).Nodup
  accepted : Accepted [(createSchemaMeta.name, createSchemaMeta.object)] (migrations.flatMap (·.statements))

/-- The version is recorded without one of its objects, or not recorded although one of its objects is there. -/
def PartlyApplied (migration : Migration) (db : Schema) : Prop :=
  (migration.version ∈ db.versions.rows.map Prod.fst ∧ ∃ o ∈ addedBy migration.statements, o ∉ db.objects.rows) ∨
    (migration.version ∉ db.versions.rows.map Prod.fst ∧
      ∃ o ∈ addedBy migration.statements, o.1 ∈ db.objects.rows.map Prod.fst)

/-- Every object of every version is there, and every version is recorded once. -/
def FullyApplied (migrations : List Migration) (db : Schema) : Prop :=
  ∀ migration ∈ migrations, (∀ s ∈ migration.statements, (s.name, s.object) ∈ db.objects.rows) ∧
    (db.versions.rows.map Prod.fst).count migration.version = 1

/-- Nothing raises but what cannot be executed. -/
def uninterrupted : Env connection Exc Schema := sqlite fun _ _ => False

/-- No version is partly applied, and the store can be opened: a run that is not interrupted returns, with everything applied. -/
def Restartable (migrations : List Migration) (db : Schema) : Prop :=
  (∀ migration ∈ migrations, ¬PartlyApplied migration db) ∧
    (∃ db', Exec uninterrupted (openStateStore migrations) db (.returned ()) db') ∧
      ∀ o db', Exec uninterrupted (openStateStore migrations) db o db' → o ≠ .crashed →
        o = .returned () ∧ FullyApplied migrations db'

/-- Whether the last version begun, and not yet recorded, has an object of its own. -/
def inVersion : Monitor connection Exc Bool where
  start := false
  step
    | begun, ⟨.create s, .ok _⟩ => begun || decide (s ≠ createSchemaMeta)
    | _, ⟨.insertVersion _ _, .ok _⟩ => false
    | begun, _ => begun

/-- An attempt: what it performed, and the database it left. -/
structure MigrationAttempt where
  performed : List (Event connection Exc)
  left : Schema

/-- The attempt stopped inside a version: after its first object and before its row. -/
def MigrationAttempt.StopsInside (attempt : MigrationAttempt) : Prop := inVersion.after attempt.performed = true

/-- Attempts one after the other, each cut, failing or returning. -/
inductive MigrationAttempts (faults : SchemaOp → Exc → Prop) (migrations : List Migration) :
    Schema → List MigrationAttempt → Schema → Prop where
  | nil (db : Schema) : MigrationAttempts faults migrations db [] db
  | snoc {db db₁ : Schema} {attempts : List MigrationAttempt} {attempt : MigrationAttempt} {o : Outcome Exc Unit} :
      MigrationAttempts faults migrations db attempts db₁ →
        Exec (recording (sqlite faults)) (openStateStore migrations) (db₁, []) o (attempt.left, attempt.performed) →
          MigrationAttempts faults migrations db (attempts ++ [attempt]) attempt.left

namespace MigrationAux

/-! ## Statements -/

/-- The table of the applied versions, as an object. -/
def metaObject : String × SchemaObject := (createSchemaMeta.name, createSchemaMeta.object)

variable {there : List (String × SchemaObject)} {faults : SchemaOp → Exc → Prop}

@[simp] theorem addedBy_nil : addedBy [] = [] := rfl

theorem addedBy_append (a b : List CreateStatement) : addedBy (a ++ b) = addedBy a ++ addedBy b := by
  simp [addedBy]

theorem addedBy_meta (rest : List CreateStatement) : addedBy (createSchemaMeta :: rest) = addedBy rest := by
  simp [addedBy]

theorem addedBy_cons {s : CreateStatement} (hs : s ≠ createSchemaMeta) (rest : List CreateStatement) :
    addedBy (s :: rest) = (s.name, s.object) :: addedBy rest := by
  simp [addedBy, hs]

theorem accepted_append {a b : List CreateStatement} :
    Accepted there (a ++ b) ↔ Accepted there a ∧ Accepted (there ++ addedBy a) b := by
  induction a generalizing there with
  | nil => simp [Accepted]
  | cons s rest ih =>
    by_cases hs : s = createSchemaMeta
    · subst hs
      simp only [List.cons_append, Accepted, if_true, addedBy_meta]
      exact ih
    · simp only [List.cons_append, Accepted, if_neg hs, addedBy_cons hs, ih, List.append_assoc]
      exact ⟨fun ⟨h₁, h₂, h₃, h₄⟩ => ⟨⟨h₁, h₂, h₃⟩, h₄⟩, fun ⟨⟨h₁, h₂, h₃⟩, h₄⟩ => ⟨h₁, h₂, h₃, h₄⟩⟩

/-- The names of what is added are new and distinct. -/
theorem Accepted.nodup {statements : List CreateStatement} (h : Accepted there statements)
    (hthere : (there.map Prod.fst).Nodup) : ((there ++ addedBy statements).map Prod.fst).Nodup := by
  induction statements generalizing there with
  | nil => simpa using hthere
  | cons s rest ih =>
    unfold Accepted at h
    split at h
    · rename_i hs
      subst hs
      rw [addedBy_meta]
      exact ih h hthere
    · rename_i hs
      obtain ⟨hnew, -, hrest⟩ := h
      have hnext : ((there ++ [(s.name, s.object)]).map Prod.fst).Nodup := by
        rw [List.map_append, List.map_singleton, List.nodup_append]
        refine ⟨hthere, List.nodup_singleton _, ?_⟩
        intro a ha b hb hab
        rw [List.mem_singleton] at hb
        rw [hab, hb] at ha
        exact hnew ha
      have hnodup := ih hrest hnext
      rwa [addedBy_cons hs, ← List.singleton_append, ← List.append_assoc]

/-- The statement of the table of the applied versions, where it is there. -/
theorem create_meta {db : Schema} (h : metaObject ∈ db.objects.rows) : db.create createSchemaMeta = some db := by
  unfold Schema.create
  cases hf : db.objects.rows.find? (·.1 = createSchemaMeta.name) with
  | none =>
    have hnone := List.find?_eq_none.1 hf metaObject h
    simp [metaObject] at hnone
  | some existing =>
    have hname : existing.1 = createSchemaMeta.name := by simpa using List.find?_some hf
    have heq : existing = metaObject := Table.eq_of_key_eq (List.mem_of_find?_eq_some hf) h hname
    subst heq
    rfl

/-- A statement of a new object. -/
theorem create_new {db : Schema} {s : CreateStatement} (hnew : s.name ∉ db.objects.rows.map Prod.fst)
    (hfits : s.object.fits db.objects.rows = true) :
    ∃ db', db.create s = some db' ∧ db'.objects.rows = db.objects.rows ++ [(s.name, s.object)] ∧
      db'.versions = db.versions := by
  have hnone : db.objects.rows.find? (·.1 = s.name) = none := by
    rw [List.find?_eq_none]
    intro o ho hname
    exact hnew (List.mem_map.2 ⟨o, ho, by simpa using hname⟩)
  cases hins : db.objects.insert (s.name, s.object) with
  | none =>
    unfold Table.insert at hins
    split at hins
    · rename_i hmem
      exact absurd hmem hnew
    · cases hins
  | some t =>
    refine ⟨{ db with objects := t }, ?_, (Table.insert_eq_some_iff.1 hins).2, rfl⟩
    unfold Schema.create
    rw [hnone]
    simp [hfits, hins]

/-! ## One attempt -/

/-- The versions `done` are applied, and the statements `begun` of the next one; the monitor says whether those created an
object. -/
structure Stage (done : List Migration) (begun : List CreateStatement) (w : Schema × List (Event connection Exc)) :
    Prop where
  objects : w.1.objects.rows = metaObject :: addedBy (done.flatMap (·.statements) ++ begun)
  versions : w.1.versions.rows.map Prod.fst = done.map (·.version)
  inside : inVersion.after w.2 = true ↔ addedBy begun ≠ []

/-- Nothing is there yet. -/
structure Fresh (w : Schema × List (Event connection Exc)) : Prop where
  objects : w.1.objects.rows = []
  versions : w.1.versions.rows = []
  inside : inVersion.after w.2 = false

/-- What holds wherever an attempt stops: some versions are applied, and a part of the next one. -/
def Sound (ms : List Migration) (w : Schema × List (Event connection Exc)) : Prop :=
  Fresh w ∨ ∃ done rest begun, ms = done ++ rest ∧ (∀ m ∈ rest.head?, begun <+: m.statements) ∧
    (rest = [] → begun = []) ∧ Stage done begun w

variable {ms done rest : List Migration} {m : Migration} {begun left : List CreateStatement}

theorem Stage.sound {w : Schema × List (Event connection Exc)} (h : Stage done [] w) (hms : ms = done ++ rest) :
    Sound ms w :=
  Or.inr ⟨done, rest, [], hms, fun _ _ => List.nil_prefix, fun _ => rfl, h⟩

theorem Stage.sound_begun {w : Schema × List (Event connection Exc)} (h : Stage done begun w)
    (hms : ms = done ++ m :: rest) (hbegun : begun <+: m.statements) : Sound ms w := by
  refine Or.inr ⟨done, m :: rest, begun, hms, ?_, nofun, h⟩
  intro m' hm'
  cases hm'
  exact hbegun

/-- The statements that are executed next are accepted where they stand. -/
theorem accepted_next (hms : Accepted [metaObject] (ms.flatMap (·.statements)))
    (hsplit : ms = done ++ m :: rest) (hbegun : m.statements = begun ++ left) :
    Accepted (metaObject :: addedBy (done.flatMap (·.statements) ++ begun)) left := by
  have hall : ms.flatMap (·.statements) =
      (done.flatMap (·.statements) ++ begun) ++ (left ++ rest.flatMap (·.statements)) := by
    rw [hsplit, List.flatMap_append, List.flatMap_cons, hbegun]
    simp
  rw [hall, accepted_append] at hms
  exact (accepted_append.1 hms.2).1

/-- What an attempt raises is a fault, and it has stopped at a sound stage. -/
def Raises (faults : SchemaOp → Exc → Prop) (ms : List Migration) (_ : Exc)
    (w : Schema × List (Event connection Exc)) : Prop :=
  Sound ms w ∧ ∃ op x, faults op x

/-- An operation on a connection: it takes effect, or nothing has changed. -/
theorem execute_spec {op : SchemaOp} {P : Schema × List (Event connection Exc) → Prop}
    {Q : connection.Reply op → Schema × List (Event connection Exc) → Prop}
    (hP : ∀ w, P w → Sound ms w)
    (hkeep : ∀ db t x, P (db, t) → P (db, t ++ [⟨op, .error x⟩]))
    (hable : ∀ db t, P (db, t) → ∃ reply db', db.Step op reply db')
    (hQ : ∀ db t reply db', P (db, t) → db.Step op reply db' →
      Q reply (db', t ++ [⟨op, .ok reply⟩]) ∧ Sound ms (db', t ++ [⟨op, .ok reply⟩])) :
    Triple (recording (sqlite faults)) P (execute op) Q (Raises faults ms) (Sound ms) := by
  refine Triple.perform hP ?_ ?_
  · rintro ⟨db, t⟩ reply ⟨db', t'⟩ hw ⟨hs, ht⟩
    simp only at ht hs
    subst ht
    exact hQ db t reply db' hw hs
  · rintro ⟨db, t⟩ x ⟨db', t'⟩ hw ⟨⟨hdb, hx⟩, ht⟩
    simp only at ht hdb
    subst ht hdb
    have hsound := hP _ (hkeep _ _ x hw)
    refine ⟨⟨hsound, ?_⟩, hsound⟩
    rcases hx with hx | ⟨-, hx⟩
    · exact ⟨op, x, hx⟩
    · obtain ⟨reply, db₁, hs⟩ := hable _ _ hw
      exact absurd hs (hx reply db₁)

/-- The monitor ignores what fails. -/
theorem after_error (t : List (Event connection Exc)) (op : SchemaOp) (x : Exc) :
    inVersion.after (t ++ [⟨op, .error x⟩]) = inVersion.after t := by
  rw [Monitor.after_snoc]
  cases op <;> rfl

theorem Stage.keep {db : Schema} {t t' : List (Event connection Exc)} (ht : inVersion.after t' = inVersion.after t)
    (h : Stage done begun (db, t)) : Stage done begun (db, t') := by
  refine ⟨h.objects, h.versions, ?_⟩
  have hinside := h.inside
  simp only at hinside ⊢
  rw [ht]
  exact hinside

theorem Fresh.keep {db : Schema} {t t' : List (Event connection Exc)} (ht : inVersion.after t' = inVersion.after t)
    (h : Fresh (db, t)) : Fresh (db, t') :=
  ⟨h.objects, h.versions, ht.trans h.inside⟩

/-- One statement of a version. -/
theorem create_spec (hms : Accepted [metaObject] (ms.flatMap (·.statements))) (hsplit : ms = done ++ m :: rest)
    {s : CreateStatement} (hbegun : m.statements = begun ++ s :: left) :
    Triple (recording (sqlite faults)) (Stage done begun) (execute (.create s))
      (fun _ => Stage done (begun ++ [s])) (Raises faults ms) (Sound ms) := by
  have hnext := accepted_next hms hsplit hbegun
  have hprefix : begun <+: m.statements := ⟨s :: left, hbegun.symm⟩
  have hprefix' : begun ++ [s] <+: m.statements := ⟨left, by rw [hbegun, List.append_assoc, List.singleton_append]⟩
  have hcreate : ∀ db t, Stage done begun (db, t) → ∃ db', db.create s = some db' ∧
      db'.objects.rows = metaObject :: addedBy (done.flatMap (·.statements) ++ (begun ++ [s])) ∧
        db'.versions = db.versions := by
    intro db t hw
    unfold Accepted at hnext
    split at hnext
    · rename_i hs
      subst hs
      have hmem : metaObject ∈ db.objects.rows := by
        rw [hw.objects]
        exact List.mem_cons_self
      refine ⟨db, create_meta hmem, ?_, rfl⟩
      rw [hw.objects]
      simp [addedBy]
    · rename_i hs
      obtain ⟨hnew, hfits, -⟩ := hnext
      rw [← hw.objects] at hnew hfits
      obtain ⟨db', hdb', hrows, hversions⟩ := create_new hnew hfits
      refine ⟨db', hdb', ?_, hversions⟩
      rw [hrows, hw.objects]
      simp [addedBy, hs]
  refine execute_spec (fun w hw => hw.sound_begun hsplit hprefix) (fun db t x hw => hw.keep (after_error t _ x)) ?_ ?_
  · intro db t hw
    obtain ⟨db', hdb', -⟩ := hcreate db t hw
    exact ⟨(), db', hdb'⟩
  · intro db t reply db' hw hs
    obtain ⟨db₁, hdb₁, hrows, hversions⟩ := hcreate db t hw
    have heq : db' = db₁ := Option.some.inj (hs.symm.trans hdb₁)
    subst heq
    have hstage : Stage done (begun ++ [s]) (db', t ++ [⟨.create s, .ok reply⟩]) := by
      refine ⟨hrows, by rw [hversions]; exact hw.versions, ?_⟩
      have hstep : inVersion.after (t ++ [⟨.create s, .ok reply⟩]) =
          (inVersion.after t || decide (s ≠ createSchemaMeta)) := Monitor.after_snoc _ _ _
      have hinside := hw.inside
      rw [hstep, Bool.or_eq_true, hinside, decide_eq_true_eq, addedBy_append]
      by_cases hmeta : s = createSchemaMeta
      · simp [hmeta, addedBy]
      · simp [hmeta, addedBy]
    exact ⟨hstage, hstage.sound_begun hsplit hprefix'⟩

theorem applyStatements_spec (hms : Accepted [metaObject] (ms.flatMap (·.statements)))
    (hsplit : ms = done ++ m :: rest) (hbegun : m.statements = begun ++ left) :
    Triple (recording (sqlite faults)) (Stage done begun) (applyStatements left)
      (fun _ => Stage done m.statements) (Raises faults ms) (Sound ms) := by
  induction left generalizing begun with
  | nil =>
    rw [List.append_nil] at hbegun
    rw [hbegun]
    exact Triple.ret (fun _ hw => hw) fun w hw => hw.sound_begun hsplit ⟨[], by rw [List.append_nil, hbegun]⟩
  | cons s left ih =>
    refine Triple.bind (create_spec hms hsplit hbegun) fun _ => ih ?_
    rw [hbegun, List.append_assoc, List.singleton_append]

/-- An operation that changes neither the schema nor the monitor. -/
theorem execute_aside {op : SchemaOp} {P : Schema × List (Event connection Exc) → Prop}
    (hP : ∀ w, P w → Sound ms w) (hkeep : ∀ db t r, P (db, t) → P (db, t ++ [⟨op, r⟩]))
    (hable : ∀ db : Schema, ∃ reply, db.Step op reply db)
    (hstep : ∀ (db : Schema) reply db', db.Step op reply db' → db' = db) :
    Triple (recording (sqlite faults)) P (execute op) (fun _ => P) (Raises faults ms) (Sound ms) := by
  refine execute_spec hP (fun db t x hw => hkeep db t _ hw) ?_ ?_
  · intro db t _
    obtain ⟨reply, hs⟩ := hable db
    exact ⟨reply, db, hs⟩
  · intro db t reply db' hw hs
    have heq := hstep db reply db' hs
    subst heq
    exact ⟨hkeep _ _ _ hw, hP _ (hkeep _ _ _ hw)⟩

/-- The operation leaves the schema and the monitor alone. -/
def SchemaOp.preparing : SchemaOp → Bool
  | .makeParent | .createFile | .closeFile | .chmodFile | .connect | .pragma _ | .now => true
  | _ => false

theorem after_preparing {op : SchemaOp} (hop : SchemaOp.preparing op = true) (t : List (Event connection Exc))
    (r : Except Exc (connection.Reply op)) : inVersion.after (t ++ [⟨op, r⟩]) = inVersion.after t := by
  rw [Monitor.after_snoc]
  cases op <;> first | rfl | cases hop

theorem execute_preparing {op : SchemaOp} (hop : SchemaOp.preparing op = true)
    {P : Schema × List (Event connection Exc) → Prop} (hP : ∀ w, P w → Sound ms w)
    (hkeep : ∀ db t t', inVersion.after t' = inVersion.after t → P (db, t) → P (db, t')) :
    Triple (recording (sqlite faults)) P (execute op) (fun _ => P) (Raises faults ms) (Sound ms) := by
  refine execute_aside hP (fun db t r hw => hkeep db t _ (after_preparing hop t r) hw) ?_ ?_
  · intro db
    cases op with
    | now => exact ⟨(0 : Timestamp), rfl⟩
    | makeParent | createFile | closeFile | chmodFile | connect | pragma => exact ⟨(), rfl⟩
    | create | selectVersions | insertVersion => cases hop
  · intro db reply db' hs
    cases op <;> first | exact hs | cases hop

/-- The row of a version completes it. -/
theorem insertVersion_spec (hversions : (ms.map (·.version)).Nodup) (hsplit : ms = done ++ m :: rest)
    (appliedAt : Timestamp) :
    Triple (recording (sqlite faults)) (Stage done m.statements) (execute (.insertVersion m.version appliedAt))
      (fun _ => Stage (done ++ [m]) []) (Raises faults ms) (Sound ms) := by
  have hmeta : ∀ db t, Stage done m.statements (db, t) → db.hasMeta = true := by
    intro db t hw
    unfold Schema.hasMeta
    rw [hw.objects]
    simp [metaObject]
  have hnew : m.version ∉ done.map (·.version) := by
    rw [hsplit, List.map_append, List.map_cons, List.nodup_append] at hversions
    intro hmem
    exact hversions.2.2 _ hmem _ List.mem_cons_self rfl
  refine execute_spec (fun w hw => hw.sound_begun hsplit List.prefix_rfl) (fun db t x hw => hw.keep (after_error t _ x)) ?_ ?_
  · intro db t hw
    have hins : ∃ t', db.versions.insert (m.version, appliedAt) = some t' := by
      unfold Table.insert
      rw [dif_neg (by rw [hw.versions]; exact hnew)]
      exact ⟨_, rfl⟩
    obtain ⟨t', ht'⟩ := hins
    exact ⟨(), { db with versions := t' }, hmeta db t hw, t', ht', rfl⟩
  · rintro db t reply db' hw ⟨-, t', ht', rfl⟩
    have hrows := (Table.insert_eq_some_iff.1 ht').2
    have hstage : Stage (done ++ [m]) [] ({ db with versions := t' }, t ++ [⟨.insertVersion m.version appliedAt, .ok reply⟩]) := by
      refine ⟨?_, ?_, ?_⟩
      · have hobjects := hw.objects
        simp only at hobjects ⊢
        rw [hobjects]
        simp
      · have hold := hw.versions
        simp only at hold ⊢
        rw [hrows, List.map_append, hold]
        simp
      · rw [Monitor.after_snoc]
        simp [inVersion]
    have hms : ms = (done ++ [m]) ++ rest := by rw [hsplit, List.append_assoc, List.singleton_append]
    exact ⟨hstage, hstage.sound hms⟩

theorem applyVersion_spec (hms : WellFormedMigrations ms) (hsplit : ms = done ++ m :: rest) :
    Triple (recording (sqlite faults)) (Stage done []) (applyVersion m) (fun _ => Stage (done ++ [m]) [])
      (Raises faults ms) (Sound ms) := by
  refine Triple.bind (applyStatements_spec hms.accepted hsplit rfl) fun _ => ?_
  refine Triple.bind (execute_preparing rfl (fun w hw => hw.sound_begun hsplit List.prefix_rfl)
    fun _ _ _ ht hw => hw.keep ht) fun now => ?_
  exact insertVersion_spec hms.versions hsplit now

/-- The loop over the versions that are not applied yet. -/
theorem applyPending_spec (hms : WellFormedMigrations ms) {applied : List Int} (hsplit : ms = done ++ rest)
    (hrest : ∀ m ∈ rest, m.version ∉ applied) :
    Triple (recording (sqlite faults)) (Stage done []) (applyPending applied rest) (fun _ => Stage ms [])
      (Raises faults ms) (Sound ms) := by
  induction rest generalizing done with
  | nil =>
    rw [List.append_nil] at hsplit
    subst hsplit
    have hms : ms = ms ++ [] := (List.append_nil _).symm
    exact Triple.ret (fun _ hw => hw) fun w hw => hw.sound hms
  | cons m rest ih =>
    rw [applyPending, if_neg (hrest m List.mem_cons_self)]
    refine Triple.bind (applyVersion_spec hms hsplit) fun _ => ?_
    refine ih ?_ fun m' hm' => hrest m' (List.mem_cons_of_mem _ hm')
    rw [hsplit, List.append_assoc, List.singleton_append]

/-- The versions that are recorded are passed over. -/
theorem applyPending_append {applied : List Int} (hdone : ∀ m ∈ done, m.version ∈ applied) :
    applyPending applied (done ++ rest) = applyPending applied rest := by
  induction done with
  | nil => rfl
  | cons m done ih =>
    rw [List.cons_append, applyPending, if_pos (hdone m List.mem_cons_self)]
    exact ih fun m' hm' => hdone m' (List.mem_cons_of_mem _ hm')

/-- No version is partly applied: the first ones are applied, the others not begun. -/
def Clean (ms : List Migration) (db : Schema) : Prop :=
  (db.objects.rows = [] ∧ db.versions.rows = []) ∨ ∃ done rest, ms = done ++ rest ∧
    db.objects.rows = metaObject :: addedBy (done.flatMap (·.statements)) ∧
      db.versions.rows.map Prod.fst = done.map (·.version)

/-- A stage between two versions. -/
def Between (ms : List Migration) (w : Schema × List (Event connection Exc)) : Prop :=
  Fresh w ∨ ∃ done rest, ms = done ++ rest ∧ Stage done [] w

theorem Between.sound {w : Schema × List (Event connection Exc)} (h : Between ms w) : Sound ms w := by
  rcases h with h | ⟨done, rest, hms, h⟩
  · exact Or.inl h
  · exact h.sound hms

theorem Between.keep {db : Schema} {t t' : List (Event connection Exc)} (ht : inVersion.after t' = inVersion.after t)
    (h : Between ms (db, t)) : Between ms (db, t') := by
  rcases h with h | ⟨done, rest, hms, h⟩
  · exact Or.inl (h.keep ht)
  · exact Or.inr ⟨done, rest, hms, h.keep ht⟩

theorem Clean.between {db : Schema} (h : Clean ms db) : Between ms (db, []) := by
  rcases h with ⟨hobjects, hversions⟩ | ⟨done, rest, hms, hobjects, hversions⟩
  · exact Or.inl ⟨hobjects, hversions, rfl⟩
  · refine Or.inr ⟨done, rest, hms, ⟨?_, hversions, ?_⟩⟩
    · rw [List.append_nil]
      exact hobjects
    · simp [inVersion]

/-- The first statement of an attempt makes sure of the table of the applied versions. -/
theorem createMeta_spec :
    Triple (recording (sqlite faults)) (Between ms) (execute (.create createSchemaMeta))
      (fun _ w => ∃ done rest, ms = done ++ rest ∧ Stage done [] w) (Raises faults ms) (Sound ms) := by
  have hcreate : ∀ db t, Between ms (db, t) → ∃ db', db.create createSchemaMeta = some db' ∧
      ∀ reply, ∃ done rest, ms = done ++ rest ∧ Stage done [] (db', t ++ [⟨.create createSchemaMeta, .ok reply⟩]) := by
    intro db t hw
    have hstep : ∀ reply, inVersion.after (t ++ [⟨.create createSchemaMeta, .ok reply⟩]) = inVersion.after t := by
      intro reply
      rw [Monitor.after_snoc]
      simp [inVersion]
    rcases hw with hw | ⟨done, rest, hms, hw⟩
    · have hnew : createSchemaMeta.name ∉ db.objects.rows.map Prod.fst := by
        have hobjects := hw.objects
        simp only at hobjects
        rw [hobjects]
        simp
      obtain ⟨db', hdb', hrows, hversions⟩ := create_new hnew rfl
      refine ⟨db', hdb', fun reply => ⟨[], ms, rfl, ⟨?_, ?_, ?_⟩⟩⟩
      · have hobjects := hw.objects
        simp only at hobjects
        rw [hrows, hobjects]
        rfl
      · have hold := hw.versions
        simp only at hold
        rw [hversions, hold]
        rfl
      · have hinside := hw.inside
        simp only at hinside ⊢
        rw [hstep, hinside]
        simp
    · have hmem : metaObject ∈ db.objects.rows := by
        rw [hw.objects]
        exact List.mem_cons_self
      exact ⟨db, create_meta hmem, fun reply => ⟨done, rest, hms, hw.keep (hstep reply)⟩⟩
  refine execute_spec (fun w hw => hw.sound) (fun db t x hw => hw.keep (after_error t _ x)) ?_ ?_
  · intro db t hw
    obtain ⟨db', hdb', -⟩ := hcreate db t hw
    exact ⟨(), db', hdb'⟩
  · intro db t reply db' hw hs
    obtain ⟨db₁, hdb₁, hstage⟩ := hcreate db t hw
    have heq : db' = db₁ := Option.some.inj (hs.symm.trans hdb₁)
    subst heq
    obtain ⟨done, rest, hms, h⟩ := hstage reply
    exact ⟨⟨done, rest, hms, h⟩, h.sound hms⟩

/-- The versions that are read are the applied ones. -/
theorem selectVersions_spec (hms : ms = done ++ rest) :
    Triple (recording (sqlite faults)) (Stage done []) (execute .selectVersions)
      (fun found w => Stage done [] w ∧ found.Perm (done.map (·.version))) (Raises faults ms) (Sound ms) := by
  refine execute_spec (fun w hw => hw.sound hms) (fun db t x hw => hw.keep (after_error t _ x)) ?_ ?_
  · intro db t hw
    refine ⟨_, db, rfl, ?_, List.Perm.refl _⟩
    unfold Schema.hasMeta
    rw [hw.objects]
    simp [metaObject]
  · rintro db t found db' hw ⟨hdb, -, hperm⟩
    subst hdb
    have hstage : Stage done [] (db', t ++ [⟨.selectVersions, .ok found⟩]) := hw.keep (Monitor.after_snoc _ _ _)
    have hversions := hw.versions
    simp only at hversions
    rw [hversions] at hperm
    exact ⟨⟨hstage, hperm⟩, hstage.sound hms⟩

theorem applyMigrations_spec (hms : WellFormedMigrations ms) :
    Triple (recording (sqlite faults)) (Between ms) (applyMigrations ms) (fun _ => Stage ms []) (Raises faults ms)
      (Sound ms) := by
  refine Triple.bind createMeta_spec fun _ => ?_
  refine Triple.of_exists fun done => Triple.of_exists fun rest => ?_
  rintro w ⟨hsplit, hw⟩
  refine (Triple.bind (selectVersions_spec hsplit) fun applied => Triple.assume fun happlied => ?_) w hw
  have hdone : ∀ m ∈ done, m.version ∈ applied := fun m hm => happlied.mem_iff.2 (List.mem_map_of_mem hm)
  have hrest : ∀ m ∈ rest, m.version ∉ applied := by
    intro m hm hmem
    have hnodup := hms.versions
    rw [hsplit, List.map_append, List.nodup_append] at hnodup
    exact hnodup.2.2 _ (happlied.mem_iff.1 hmem) _ (List.mem_map_of_mem hm) rfl
  rw [hsplit, applyPending_append hdone, ← hsplit]
  exact applyPending_spec hms hsplit hrest

/-- What an attempt leaves, however it ends. -/
theorem openStateStore_spec (hms : WellFormedMigrations ms) :
    Triple (recording (sqlite faults)) (Between ms) (openStateStore ms) (fun _ => Stage ms []) (Raises faults ms)
      (Sound ms) := by
  have hprepare : ∀ {op : SchemaOp}, SchemaOp.preparing op = true →
      Triple (recording (sqlite faults)) (Between ms) (execute op) (fun _ => Between ms) (Raises faults ms) (Sound ms) :=
    fun hop => execute_preparing hop (fun _ hw => hw.sound) fun _ _ _ ht hw => hw.keep ht
  refine Triple.bind (hprepare rfl) fun _ => Triple.bind (hprepare rfl) fun _ => ?_
  refine Triple.bind (hprepare rfl) fun _ => Triple.bind (hprepare rfl) fun _ => ?_
  refine Triple.bind (hprepare rfl) fun _ => Triple.bind (hprepare rfl) fun _ => ?_
  refine Triple.bind (hprepare rfl) fun _ => Triple.bind (hprepare rfl) fun _ => ?_
  exact applyMigrations_spec hms

/-! ## What a stage means -/

theorem nodup_objects (hms : WellFormedMigrations ms) :
    ((metaObject :: addedBy (ms.flatMap (·.statements))).map Prod.fst).Nodup := by
  have hmeta : ([metaObject].map Prod.fst).Nodup := List.nodup_singleton _
  exact Accepted.nodup hms.accepted hmeta

theorem addedBy_flatMap (l : List Migration) : addedBy (l.flatMap (·.statements)) = l.flatMap (addedBy ·.statements) := by
  induction l with
  | nil => rfl
  | cons m l ih => rw [List.flatMap_cons, addedBy_append, ih, List.flatMap_cons]

/-- Objects of a version that is not applied are not there. -/
theorem not_added (hms : WellFormedMigrations ms) (hsplit : ms = done ++ rest) (hm : m ∈ rest)
    {o : String × SchemaObject} (ho : o ∈ addedBy m.statements) :
    o.1 ∉ (metaObject :: addedBy (done.flatMap (·.statements))).map Prod.fst := by
  have hnodup := nodup_objects hms
  rw [hsplit, List.flatMap_append, addedBy_append, ← List.cons_append, List.map_append, List.nodup_append] at hnodup
  intro hmem
  refine hnodup.2.2 _ hmem _ (List.mem_map_of_mem ?_) rfl
  rw [addedBy_flatMap, List.mem_flatMap]
  exact ⟨m, hm, ho⟩

/-- Between two versions none is partly applied. -/
theorem Clean.not_partly {db : Schema} (hms : WellFormedMigrations ms) (h : Clean ms db) (hm : m ∈ ms) :
    ¬PartlyApplied m db := by
  rcases h with ⟨hobjects, hversions⟩ | ⟨done, rest, hsplit, hobjects, hversions⟩
  · unfold PartlyApplied
    rw [hobjects, hversions]
    simp
  · have hrecorded : ∀ m ∈ rest, m.version ∉ done.map (·.version) := by
      intro m hm hmem
      have hnodup := hms.versions
      rw [hsplit, List.map_append, List.nodup_append] at hnodup
      exact hnodup.2.2 _ hmem _ (List.mem_map_of_mem hm) rfl
    unfold PartlyApplied
    rw [hobjects, hversions]
    rw [hsplit, List.mem_append] at hm
    rcases hm with hm | hm
    · rintro (⟨-, o, ho, hmissing⟩ | ⟨hnot, -⟩)
      · refine hmissing (List.mem_cons_of_mem _ ?_)
        rw [addedBy_flatMap, List.mem_flatMap]
        exact ⟨m, hm, ho⟩
      · exact hnot (List.mem_map_of_mem hm)
    · rintro (⟨hthere, -⟩ | ⟨-, o, ho, hthere⟩)
      · exact hrecorded m hm hthere
      · exact not_added hms hsplit hm ho hthere

/-- Where an attempt stops outside of a version, the database is clean. -/
theorem Sound.clean {w : Schema × List (Event connection Exc)} (h : Sound ms w) (hw : inVersion.after w.2 = false) :
    Clean ms w.1 := by
  rcases h with h | ⟨done, rest, begun, hsplit, -, -, h⟩
  · exact Or.inl ⟨h.objects, h.versions⟩
  · have hbegun : addedBy begun = [] := by
      by_contra hne
      rw [h.inside.2 hne] at hw
      cases hw
    refine Or.inr ⟨done, rest, hsplit, ?_, h.versions⟩
    rw [h.objects, addedBy_append, hbegun, List.append_nil]

/-- Where it stops inside of a version, that version is partly applied. -/
theorem Sound.partly {w : Schema × List (Event connection Exc)} (hms : WellFormedMigrations ms) (h : Sound ms w)
    (hw : inVersion.after w.2 = true) : ∃ m ∈ ms, PartlyApplied m w.1 := by
  rcases h with h | ⟨done, rest, begun, hsplit, hhead, hnil, h⟩
  · rw [h.inside] at hw
    cases hw
  · have hbegun := h.inside.1 hw
    cases rest with
    | nil =>
      rw [hnil rfl] at hbegun
      exact absurd rfl hbegun
    | cons m rest =>
      obtain ⟨o, ho⟩ := List.exists_mem_of_ne_nil _ hbegun
      obtain ⟨left, hleft⟩ := hhead m rfl
      refine ⟨m, by rw [hsplit]; simp, Or.inr ⟨?_, o, ?_, ?_⟩⟩
      · have hnodup := hms.versions
        rw [hsplit, List.map_append, List.nodup_append] at hnodup
        rw [h.versions]
        intro hmem
        exact hnodup.2.2 _ hmem _ (List.mem_map_of_mem List.mem_cons_self) rfl
      · rw [← hleft, addedBy_append]
        exact List.mem_append_left _ ho
      · rw [h.objects, addedBy_append]
        exact List.mem_map_of_mem (List.mem_cons_of_mem _ (List.mem_append_right _ ho))

/-- Where every version is done, all of them are applied in full. -/
theorem Stage.fullyApplied {w : Schema × List (Event connection Exc)} (hms : WellFormedMigrations ms)
    (h : Stage ms [] w) : FullyApplied ms w.1 := by
  intro m hm
  have hobjects := h.objects
  rw [List.append_nil] at hobjects
  refine ⟨fun s hs => ?_, ?_⟩
  · rw [hobjects]
    by_cases hmeta : s = createSchemaMeta
    · subst hmeta
      exact List.mem_cons_self
    · refine List.mem_cons_of_mem _ ?_
      rw [addedBy_flatMap, List.mem_flatMap]
      refine ⟨m, hm, List.mem_map.2 ⟨s, ?_, rfl⟩⟩
      rw [List.mem_filter]
      exact ⟨hs, by simpa using hmeta⟩
  · rw [h.versions]
    exact List.count_eq_one_of_mem hms.versions (List.mem_map_of_mem hm)

/-! ## A run that is not interrupted -/

theorem halts_applyStatements (l : List CreateStatement) : (applyStatements l).Halts := by
  induction l with
  | nil => trivial
  | cons s l ih => exact Program.halts_bind Program.halts_perform fun _ => ih

theorem halts_applyPending (applied : List Int) (l : List Migration) : (applyPending applied l).Halts := by
  induction l with
  | nil => trivial
  | cons m l ih =>
    unfold applyPending
    split
    · exact ih
    · refine Program.halts_bind ?_ fun _ => ih
      refine Program.halts_bind (halts_applyStatements _) fun _ => ?_
      exact Program.halts_bind Program.halts_perform fun _ => Program.halts_perform

theorem halts_openStateStore (ms : List Migration) : (openStateStore ms).Halts := by
  refine Program.halts_bind Program.halts_perform fun _ => Program.halts_bind Program.halts_perform fun _ => ?_
  refine Program.halts_bind Program.halts_perform fun _ => Program.halts_bind Program.halts_perform fun _ => ?_
  refine Program.halts_bind Program.halts_perform fun _ => Program.halts_bind Program.halts_perform fun _ => ?_
  refine Program.halts_bind Program.halts_perform fun _ => Program.halts_bind Program.halts_perform fun _ => ?_
  refine Program.halts_bind Program.halts_perform fun _ => Program.halts_bind Program.halts_perform fun applied => ?_
  exact halts_applyPending _ _

theorem Clean.restartable {db : Schema} (hms : WellFormedMigrations ms) (h : Clean ms db) : Restartable ms db := by
  have hruns : ∀ o db', Exec uninterrupted (openStateStore ms) db o db' → o ≠ .crashed →
      o = .returned () ∧ FullyApplied ms db' := by
    intro o db' hx ho
    obtain ⟨t, ht⟩ := hx.record []
    have hpost := openStateStore_spec hms _ h.between _ _ ht
    cases o with
    | returned u => exact ⟨rfl, hpost.fullyApplied hms⟩
    | raised x =>
      obtain ⟨-, op, y, hfault⟩ := hpost
      exact hfault.elim
    | crashed => exact absurd rfl ho
  refine ⟨fun m hm => h.not_partly hms hm, ?_, hruns⟩
  have hanswers : ∀ (db : Schema) op, ∃ r db', uninterrupted db op r db' :=
    stepping_answers (x := Exc.of .sqliteError "statement failed") rfl
  obtain ⟨o, db', hx, ho⟩ := exists_finished hanswers (halts_openStateStore ms) db
  obtain ⟨rfl, -⟩ := hruns o db' hx ho
  exact ⟨db', hx⟩

/-- One attempt from a clean database: it leaves a database from which migration goes on exactly where it did not stop inside of
a version. -/
theorem attempt_restartable_iff {db db' : Schema} {t : List (Event connection Exc)} {o : Outcome Exc Unit}
    (hms : WellFormedMigrations ms) (h : Clean ms db)
    (hx : Exec (recording (sqlite faults)) (openStateStore ms) (db, []) o (db', t)) :
    (Restartable ms db' ↔ inVersion.after t = false) ∧ (inVersion.after t = false → Clean ms db') := by
  have hsound : Sound ms (db', t) := by
    have hpost := openStateStore_spec hms _ h.between _ _ hx
    cases o with
    | returned u =>
      have hall : ms = ms ++ [] := (List.append_nil _).symm
      exact hpost.sound hall
    | raised x => exact hpost.1
    | crashed => exact hpost
  refine ⟨⟨fun hr => ?_, fun hout => (hsound.clean hout).restartable hms⟩, fun hout => hsound.clean hout⟩
  by_contra hin
  rw [Bool.not_eq_false] at hin
  obtain ⟨m, hm, hpartly⟩ := hsound.partly hms hin
  exact hr.1 m hm hpartly

end MigrationAux

open MigrationAux

/-- Migration is restartable exactly where no attempt stops inside of a version. For every list of migrations of the shape used
here and every number of attempts on a new database, each cut or failing between any two statements, or returning: every attempt
leaves a database in which no version is partly applied and on which a run that is not interrupted succeeds, with the schema of
every version there in full and each version recorded once, if and only if none of them stopped after the first object of a
version and before the row of the version. -/
theorem migrations_restartable_iff (faults : SchemaOp → Exc → Prop) {ms : List Migration} (hms : WellFormedMigrations ms)
    {db : Schema} {attempts : List MigrationAttempt} (h : MigrationAttempts faults ms {} attempts db) :
    (∀ attempt ∈ attempts, Restartable ms attempt.left) ↔ ∀ attempt ∈ attempts, ¬attempt.StopsInside := by
  suffices hboth : ((∀ attempt ∈ attempts, Restartable ms attempt.left) ↔ ∀ attempt ∈ attempts, ¬attempt.StopsInside) ∧
      ((∀ attempt ∈ attempts, ¬attempt.StopsInside) → Clean ms db) from hboth.1
  induction h with
  | nil => exact ⟨by simp, fun _ => Or.inl ⟨rfl, rfl⟩⟩
  | @snoc db₁ attempts attempt o _ hx ih =>
    obtain ⟨hiff, hclean⟩ := ih
    have hlast : ∀ hc : Clean ms db₁, (Restartable ms attempt.left ↔ ¬attempt.StopsInside) ∧
        (¬attempt.StopsInside → Clean ms attempt.left) := by
      intro hc
      obtain ⟨hr, hcl⟩ := attempt_restartable_iff hms hc hx
      unfold MigrationAttempt.StopsInside
      rw [Bool.not_eq_true]
      exact ⟨hr, hcl⟩
    simp only [List.forall_mem_append, List.forall_mem_singleton]
    refine ⟨⟨?_, ?_⟩, ?_⟩
    · rintro ⟨hall, hr⟩
      have hout := hiff.1 hall
      exact ⟨hout, (hlast (hclean hout)).1.1 hr⟩
    · rintro ⟨hout, hr⟩
      exact ⟨hiff.2 hout, (hlast (hclean hout)).1.2 hr⟩
    · rintro ⟨hout, hr⟩
      exact (hlast (hclean hout)).2 hr

namespace MigrationAux

/-- What SQLite answers where nothing else goes wrong, the clock standing at zero. -/
def answer : Handler connection Exc Schema := fun db op =>
  match op with
  | .create s =>
    match db.create s with
    | some db' => some (.ok (), db')
    | none => some (.error (.of .sqliteError "object already exists"), db)
  | .selectVersions => if db.hasMeta then some (.ok (db.versions.rows.map Prod.fst), db) else none
  | .insertVersion version appliedAt =>
    if db.hasMeta then
      (db.versions.insert (version, appliedAt)).map fun t => (.ok (), { db with versions := t })
    else none
  | .now => some (.ok (0 : Timestamp), db)
  | .makeParent | .createFile | .closeFile | .chmodFile | .connect | .pragma _ => some (.ok (), db)

theorem answer_allowed (faults : SchemaOp → Exc → Prop) : answer.Allowed (sqlite faults) := by
  intro db op r db' h
  cases op with
  | create s =>
    simp only [answer] at h
    split at h
    · rename_i db₁ hdb₁
      cases h
      exact hdb₁
    · rename_i hnone
      cases h
      refine ⟨rfl, Or.inr ⟨rfl, fun _ db₁ hs => ?_⟩⟩
      have hsome : db.create s = some db₁ := hs
      rw [hnone] at hsome
      cases hsome
  | selectVersions =>
    simp only [answer] at h
    split at h
    · rename_i hmeta
      cases h
      exact ⟨rfl, hmeta, List.Perm.refl _⟩
    · cases h
  | insertVersion version appliedAt =>
    simp only [answer] at h
    split at h
    · rename_i hmeta
      obtain ⟨t, ht, heq⟩ := Option.map_eq_some_iff.1 h
      cases heq
      exact ⟨hmeta, t, ht, rfl⟩
    · cases h
  | now | makeParent | createFile | closeFile | chmodFile | connect | pragma =>
    cases h
    rfl

/-- The first attempt on a new database, cut before its operation number `n`. -/
def firstAttempt (n : Nat) : Outcome Exc Unit × Schema × List (Event connection Exc) :=
  (openStateStore migrations).runFor answer.record n ({}, [])

theorem firstAttempt_exec {n : Nat} {o : Outcome Exc Unit} (ho : (firstAttempt n).1 = o) :
    Exec (recording (sqlite fun _ _ => False)) (openStateStore migrations) ({}, []) o
      ((firstAttempt n).2.1, (firstAttempt n).2.2) :=
  exec_of_runFor (answer_allowed _).record ho

theorem attempts_of_first {n : Nat} (ho : (firstAttempt n).1 = .crashed) :
    MigrationAttempts (fun _ _ => False) migrations {} [⟨(firstAttempt n).2.2, (firstAttempt n).2.1⟩]
      (firstAttempt n).2.1 := by
  have hfirst := firstAttempt_exec ho
  let attempt : MigrationAttempt := ⟨(firstAttempt n).2.2, (firstAttempt n).2.1⟩
  have hrun : MigrationAttempts (fun _ _ => False) migrations {} ([] ++ [attempt]) attempt.left := .snoc (.nil {}) hfirst
  exact hrun

theorem migrations_wellFormed : WellFormedMigrations migrations := ⟨by decide, by decide +kernel⟩

end MigrationAux

/-- Migration is not restartable in general: an attempt that is cut right after `CREATE TABLE operations` leaves version 1 partly
applied, and the next one raises although nothing interrupts it. -/
theorem migrations_restartable_false :
    ∃ attempt : MigrationAttempt, MigrationAttempts (fun _ _ => False) migrations {} [attempt] attempt.left ∧
      ¬Restartable migrations attempt.left ∧
        ∃ x db, Exec uninterrupted (openStateStore migrations) attempt.left (.raised x) db ∧
          x.isInstance .sqliteError = true := by
  have hcut : (firstAttempt 12).1 = .crashed := by decide +kernel
  have hnext : ((openStateStore migrations).runFor answer 100 (firstAttempt 12).2.1).1 =
      .raised (.of .sqliteError "object already exists") := by decide +kernel
  have hraised := exec_of_runFor (answer_allowed fun _ _ => False) hnext
  refine ⟨⟨(firstAttempt 12).2.2, (firstAttempt 12).2.1⟩, attempts_of_first hcut, fun hr => ?_, _, _, hraised, rfl⟩
  have hreturned := (hr.2.2 _ _ hraised (by simp)).1
  cases hreturned

/-- An attempt that is cut before the first object of version 1 does no harm. -/
theorem migrations_restartable_iff_sample : Restartable migrations (firstAttempt 11).2.1 := by
  have hattempts := attempts_of_first (n := 11) (by decide +kernel)
  refine (migrations_restartable_iff (fun _ _ => False) migrations_wellFormed hattempts).2 ?_ _
    (List.mem_singleton_self _)
  intro attempt hmem
  rw [List.mem_singleton.1 hmem]
  have hout : inVersion.after (firstAttempt 11).2.2 = false := by decide +kernel
  unfold MigrationAttempt.StopsInside
  rw [hout]
  exact Bool.false_ne_true

end OciAcmePublisher
