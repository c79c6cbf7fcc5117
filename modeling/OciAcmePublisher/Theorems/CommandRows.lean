import OciAcmePublisher.Lemmas.Disciplines
import OciAcmePublisher.Theorems.CommandLines
import OciAcmePublisher.Theorems.RowLifecycle

/-!
# Operation rows under concurrent commands

The life cycle of the operation rows holds between any two moments of any interleaving of commands, the timer run over
all sets and the live probe included.
-/

namespace OciAcmePublisher

open Effects Tables LifecycleAux CommandLineAux

namespace CommandRows

variable {Γ : Ctx} {passes : Nat} {faults : Faults} {commandFaults : CommandOp → Exc → Prop} {loads : String → AppConfig → Prop}

theorem passive_of_aside (op : Op) (h : op.aside = true) : op.passive := by
  cases op with
  | sql statement => exact passive_of_idle _ h
  | _ => rfl

/-- The parts of the services are orderly. -/
theorem parts_orderly (hf : faults.Honest) : PartsKeep Γ (persisting faults) Database.Orderly fun _ => True where
  aside op hop _ _ _ h := Or.inl (operations_of_passive (passive_of_aside op hop) h)
  load _ _ _ _ _ := trivial
  publication _ _ _ _ _ _ _ hop := LifecycleAux.PublicationReconciler.publish_orderly hop
  audit _ _ _ := LifecycleAux.PublicationService.audit_orderly hf
  rollback _ _ _ _ _ := LifecycleAux.RollbackService.rollback_orderly
  recovery _ _ _ := LifecycleAux.PublicationService.recoverBootstrap_orderly
  creation _ certificate _ _ _ := by
    refine Guarded.bind (startOperation_orderly certificate.id .bootstrap _ none fun h => ?_) fun _ =>
      LifecycleAux.PublicationService.createStarted_orderly hf
    rcases h with h | h <;> cases h

theorem honest_observing (hf : faults.Honest) : faults.observing.Honest where
  audit op x ho hx := by
    rcases hx with hx | hx
    · exact hf.audit op x ho hx
    · rw [ho] at hx
      cases hx
  store s x hx := by
    rcases hx with hx | hx
    · exact hf.store s x hx
    · cases hx

/-- Every operation of a command under the lock is orderly. -/
theorem command_orderly (hf : faults.Honest) (line : CommandLine) :
    Keeps (commandEnv Γ faults commandFaults loads) (fun w w' => w.database.Orderly w'.database) (line.job Γ passes).body :=
  ServicesKeep.command World.database (fun _ => True) (fun _ _ _ _ => trivial)
    (fun _ _ _ _ h => by rw [console_eq h]; exact Or.inl rfl) (fun _ _ _ _ h => persisting_of_service h) fun config _ =>
    (parts_orderly (honest_observing hf)).services passes config

end CommandRows

open CommandRows

/-- Between any two moments of any interleaving of commands, each killed anywhere: every operation row is dated exactly
when its state is terminal, and no row is lost, renamed, taken back from its end or bereft of what was learnt for it. -/
theorem rows_evolve_between_moments {ι : Type} [DecidableEq ι] {Γ : Ctx} {passes : Nat} {faults : Faults} (hf : faults.Honest)
    {lockFaults : LockOp → Exc → Prop} {commandFaults : CommandOp → Exc → Prop} {loads : String → AppConfig → Prop}
    {lines : ι → CommandLine} {inode : Option Nat} {w : World} (hw : w.database.Dated)
    {s s' : Pool ι (locking commands) Exc ExitCode (LockFile ι × World)}
    (h : Pool.Reaches (commandPool Γ passes faults lockFaults commandFaults loads lines) (.idle (.unopened inode, w)) s)
    (h' : Pool.Reaches (commandPool Γ passes faults lockFaults commandFaults loads lines) s s') :
    s.world.2.database.Dated ∧ s'.world.2.database.Dated ∧ s.world.2.database.Evolves s'.world.2.database :=
  Serialized.reaches_keeps (I := fun w : World => w.database.Dated)
    (R := fun w w' : World => w.database.Evolves w'.database) (fun i => outside_job Γ passes (lines i))
    (fun _ _ _ _ hop hstep => lockless_eq hop hstep)
    (fun i => (command_orderly hf (lines i)).conseq (fun _ _ => trivial) (fun _ _ _ => trivial) fun _ _ _ => trivial)
    (fun _ _ hd ho => Orderly.dated ho hd) (fun _ => evolves_of_operations rfl) (fun _ _ _ => evolves_trans _ _ _)
    (fun _ _ _ ho => Orderly.evolves ho) hw h h'

/-- From the first statement of a publication, beside one that was refused, to its end. -/
theorem rows_evolve_between_moments_twice :
    ∃ s s' : Pool Bool (locking commands) Exc ExitCode (LockFile Bool × World),
      s'.status false = .ended (.returned .success) ∧ s'.world.2.database.Dated ∧
        s.world.2.database.Evolves s'.world.2.database := by
  have hend : ((played (crowded ++ refusedMoves)).bind fun s => (playedFrom lastMoves s).map fun s' =>
    exitCode (s'.status false)) =
      some (some .success) := by decide +kernel
  obtain ⟨s, hs, hrest⟩ := Option.bind_eq_some_iff.1 hend
  obtain ⟨s', hs', hcode⟩ := Option.map_eq_some_iff.1 hrest
  have honest : noFaults.Honest := ⟨fun _ _ _ h => absurd h id, fun _ _ h => absurd h id⟩
  have hempty : (Sample.world Sample.resource).database.Dated := by
    intro r hr
    cases hr
  have hevolve := rows_evolve_between_moments honest hempty (played_reaches hs) (Pool.playAll_reaches sample_allowed hs')
  exact ⟨s, s', exitCode_eq_some hcode, hevolve.2⟩

end OciAcmePublisher
