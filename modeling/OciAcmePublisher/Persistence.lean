import OciAcmePublisher.OciService
import OciAcmePublisher.StateStore

/-!
# The state database alone

What a run does to the state database depends on the answers it gets and on nothing else of the outside. Here every operation but a
statement may answer anything; a run against the service is such a run.
-/

namespace OciAcmePublisher

open Effects

/-- The environment of the state database: a statement takes effect, or raises before or after it has taken effect; any other
operation answers anything. An operation raises what `faults` allows. -/
def persisting (faults : Faults) : Env publisher Exc Database := fun db op answer db' =>
  (∀ x, answer = .error x → faults op x) ∧
    match op, answer with
    | .sql statement, .ok reply => db.Step statement reply db'
    | .sql statement, .error _ => db' = db ∨ ∃ reply, db.Step statement reply db'
    | _, _ => db' = db

/-- What may be raised, where the endpoints and the clock that bounds their audit may raise anything. -/
def Faults.observing (faults : Faults) : Faults := fun op x => faults op x ∨ op.observes = true

variable {Γ : Ctx} {faults : Faults} {α : Type}

/-- An operation that is no statement leaves the database alone. -/
theorem persisting_eq {op : Op} {answer : Except Exc op.Reply} {db db' : Database}
    (h : persisting faults db op answer db') (hop : op.isSql = false) : db' = db := by
  have hmatch := h.2
  cases op with
  | sql => cases hop
  | _ => exact hmatch

/-- One step against the service, as the database sees it. -/
theorem persisting_of_service {w w' : World} {op : Op} {answer : Except Exc op.Reply}
    (h : service Γ faults w op answer w') : persisting faults.observing w.database op answer w'.database := by
  refine ⟨fun x hx => ?_, ?_⟩
  · unfold service at h
    split at h
    · rename_i ho
      exact Or.inr ho
    · subst hx
      exact Or.inl h.1
  · cases op with
    | sql statement =>
      cases answer with
      | ok reply =>
        obtain ⟨db, hs, rfl⟩ : ∃ db, w.database.Step statement reply db ∧ w' = { w with database := db } := by
          simpa [service, Op.observes, World.Step] using h
        exact hs
      | error x =>
        rcases (show faults (.sql statement) x ∧ _ from h).2 with rfl | ⟨reply, db, hs, rfl⟩
        · exact Or.inl rfl
        · exact Or.inr ⟨reply, hs⟩
    | _ => exact service_database h rfl

/-- A run against the service, as the database sees it. -/
theorem exec_persisting {p : Action α} {w w' : World} {o : Outcome Exc α} (h : Exec (service Γ faults) p w o w') :
    Exec (persisting faults.observing) p w.database o w'.database := by
  induction h with
  | ret a w => exact .ret a w.database
  | raise x w => exact .raise x w.database
  | crash p w => exact .crash p w.database
  | call he _ ih => exact .call (persisting_of_service he) ih

/-- A statement, by what its step establishes. -/
theorem Triple.statement {P C : Database → Prop} {E : Exc → Database → Prop} {s : Statement}
    {Q : s.Reply → Database → Prop} (hC : ∀ db, P db → C db)
    (hstep : ∀ db reply db', P db → db.Step s reply db' → Q reply db' ∧ C db')
    (hE : ∀ db x, P db → faults (.sql s) x → E x db)
    (hE' : ∀ db reply db' x, P db → db.Step s reply db' → faults (.sql s) x → E x db') :
    Triple (persisting faults) P (sql s) Q E C := by
  refine Triple.perform hC (fun db reply db' hP h => hstep db reply db' hP h.2) fun db x db' hP h => ?_
  have hx : faults (.sql s) x := h.1 x rfl
  rcases (show db' = db ∨ ∃ reply, db.Step s reply db' from h.2) with rfl | ⟨reply, hs⟩
  · exact ⟨hE _ x hP hx, hC _ hP⟩
  · exact ⟨hE' _ reply _ x hP hs hx, (hstep _ reply _ hP hs).2⟩

end OciAcmePublisher
