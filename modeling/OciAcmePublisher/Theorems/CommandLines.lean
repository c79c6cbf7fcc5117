import OciAcmePublisher.Lemmas.CommandLine
import OciAcmePublisher.Theorems.Serialized
import OciAcmePublisher.CommandSimulation

/-!
# Processes of the command line

Any number of commands run as processes of one host, in any interleaving, each killed anywhere. What they do to the
publisher's world is what a history of service runs does, one after the other; only the process that holds the lock
changes what the lock guards.
-/

namespace OciAcmePublisher

open Effects

/-- Processes that run commands over one world, with the publisher lock between them. -/
def commandPool {ι : Type} [DecidableEq ι] (Γ : Ctx) (passes : Nat) (faults : Faults) (lockFaults : LockOp → Exc → Prop)
    (commandFaults : CommandOp → Exc → Prop) (loads : String → AppConfig → Prop) (lines : ι → CommandLine) :
    Pool.Setting ι (locking commands) Exc ExitCode (LockFile ι × World) :=
  lockedPool lockFaults (commandEnv Γ faults commandFaults loads) fun i => (lines i).job Γ passes

variable {ι : Type} [DecidableEq ι] {Γ : Ctx} {passes : Nat} {faults : Faults} {lockFaults : LockOp → Exc → Prop}
  {commandFaults : CommandOp → Exc → Prop} {loads : String → AppConfig → Prop} {lines : ι → CommandLine} {inode : Option Nat}
  {w : World} {s s' : Pool ι (locking commands) Exc ExitCode (LockFile ι × World)} {i : ι}

namespace CommandLineAux

omit [DecidableEq ι] in
/-- The history of the commands under the lock is one of service runs. -/
theorem history_requests {w' : World} {l : List (ι × Outcome Exc ExitCode)}
    (h : History (commandEnv Γ faults commandFaults loads) (fun i => ((lines i).job Γ passes).body) w l w') :
    ∃ r : List ((ι × ServiceRequest) × Outcome Exc Bool), History (service Γ faults) (fun x => x.2.run Γ passes) w r w' ∧
      (r.map (·.1.1)).Sublist (l.map Prod.fst) ∧
        (∀ i request o, ((i, request), o) ∈ r → ∃ config, loads (lines i).path config ∧ (lines i).asks config request) ∧
          ∀ i code, (i, .returned code) ∈ l → ∃ request done, ((i, request), .returned done) ∈ r ∧
          (code = .success ↔ done = true) := by
  induction h with
  | nil =>
    exact ⟨[], .nil _, List.Sublist.refl _, fun _ _ _ h => absurd h List.not_mem_nil, fun _ _ h => absurd h List.not_mem_nil⟩
  | @snoc w₁ w₂ l i o _ hx ih =>
    obtain ⟨r, hr, hsub, hasks, hcode⟩ := ih
    rcases served_job hx with ⟨rfl, ho⟩ | ⟨config, request, o', hload, hask, hrun, hdone⟩
    · refine ⟨r, hr, ?_, hasks, fun j code hj => ?_⟩
      · rw [List.map_append]
        exact hsub.trans (List.sublist_append_left _ _)
      · rcases List.mem_append.1 hj with hj | hj
        · exact hcode j code hj
        · cases List.mem_singleton.1 hj
          exact absurd rfl (ho code)
    · refine ⟨r ++ [((i, request), o')], .snoc hr (i := (i, request)) hrun, ?_, fun j req o hj => ?_, fun j code hj => ?_⟩
      · rw [List.map_append, List.map_append]
        exact hsub.append (List.Sublist.refl _)
      · rcases List.mem_append.1 hj with hj | hj
        · exact hasks j req o hj
        · cases List.mem_singleton.1 hj
          exact ⟨config, hload, hask⟩
      · rcases List.mem_append.1 hj with hj | hj
        · obtain ⟨req, done, hmem, hiff⟩ := hcode j code hj
          exact ⟨req, done, List.mem_append_left _ hmem, hiff⟩
        · cases List.mem_singleton.1 hj
          obtain ⟨done, rfl, hiff⟩ := hdone code rfl
          exact ⟨request, done, List.mem_append_right _ (List.mem_singleton_self _), hiff⟩

theorem mayReturn_console {op : CommandOp} {f : op.Reply → Command ExitCode} {code : ExitCode}
    (h : ((console op).bind f).MayReturn code) : ∃ reply, (f reply).MayReturn code := by
  obtain ⟨r, h⟩ := h
  cases r with
  | ok reply => exact ⟨reply, h⟩
  | error x => exact absurd h id

theorem mayReturn_mainStatus {x : Exc} {code : ExitCode} (h : (mainStatus (.error x)).MayReturn code) :
    mainExitCode x.raised = some code := by
  unfold mainStatus at h
  simp only at h
  split at h
  · rename_i code' hcode
    obtain ⟨-, h⟩ := mayReturn_console h
    obtain ⟨-, h⟩ := mayReturn_console h
    rw [hcode, show code = code' from h]
  · exact absurd h id

/-- No exception is reported as a success. -/
theorem mainExitCode_ne_success (x : Exc) : mainExitCode x.raised ≠ some .success := by
  have hcode : ∀ c : ExcClass, c.code ≠ .success := fun c => by cases c <;> exact nofun
  intro h
  unfold mainExitCode at h
  split at h
  · exact hcode x.cls (Option.some.inj h)
  · repeat' split at h
    all_goals cases h

end CommandLineAux

open CommandLineAux

/-- However the processes of the command line are interleaved, and wherever they are killed, the publisher's world is
always one that a history of service runs leads to, one after the other, each whole or cut, with at most one of every
process: what its command asks with a configuration it has loaded. A command that changes the world and exits with
success has had its run, with success. -/
theorem command_lines_serialize
    (h : Pool.Reaches (commandPool Γ passes faults lockFaults commandFaults loads lines) (.idle (.unopened inode, w)) s) :
    ∃ r : List ((ι × ServiceRequest) × Outcome Exc Bool), History (service Γ faults) (fun x => x.2.run Γ passes) w r s.world.2 ∧
      (r.map (·.1.1)).Nodup ∧ (∀ i, s.status i = .idle → i ∉ r.map (·.1.1)) ∧
        (∀ i request o, ((i, request), o) ∈ r → ∃ config, loads (lines i).path config ∧ (lines i).asks config request) ∧
          ∀ i, s.status i = .ended (.returned .success) → (lines i).mutates = true →
            ∃ request, ((i, request), .returned true) ∈ r := by
  obtain ⟨l, hl, honce, hidle, hreported⟩ := locked_runs_serialize (fun i => outside_job Γ passes (lines i))
    (fun _ _ _ _ hop hstep => lockless_eq hop hstep) h
  obtain ⟨r, hr, hsub, hasks, hcode⟩ := history_requests hl
  refine ⟨r, hr, honce.sublist hsub, fun i hi hmem => hidle i hi (hsub.subset hmem), hasks, fun i hi hmutates => ?_⟩
  have hfault : ∀ x, ¬(mainStatus (.error x)).MayReturn .success :=
    fun x hx => mainExitCode_ne_success x (mayReturn_mainStatus hx)
  have hreport := hreported i _ hi
  obtain ⟨body, hjob⟩ : ∃ body, (lines i).job Γ passes = .locked body mainStatus := by
    cases hline : lines i <;> first | exact ⟨_, rfl⟩ | (rw [hline] at hmutates; cases hmutates)
  rw [hjob] at hreport
  cases hreport with
  | ran ended hmem hmay =>
    cases ended with
    | ok code =>
      obtain rfl : ExitCode.success = code := hmay
      obtain ⟨request, done, hmem, hiff⟩ := hcode i .success hmem
      rw [hiff.1 rfl] at hmem
      exact ⟨request, hmem⟩
    | error x => exact absurd hmay (hfault x)
  | unreleased op x _ _ hmay => exact absurd hmay (hfault x)
  | refused x _ _ hmay => exact absurd hmay (hfault x)

namespace CommandLineAux

open Sample

/-- Two publications of the sample certificate at once. -/
def twice (_ : Bool) : CommandLine := .publish "/etc/oci-acme-publisher/config.yaml" "web"

/-- The sample configuration, with its audits switched off. -/
def unaudited : AppConfig := config { certificate with audit := { mode := .disabled } }

abbrev twicePool : Pool.Setting Bool (locking commands) Exc ExitCode (LockFile Bool × World) :=
  commandPool ctx 1 noFaults (fun _ _ => False) (fun _ _ => False) (fun _ c => c = unaudited) twice

/-- The pool after a part of a schedule. -/
def playedFrom (schedule : List (Pool.Move Bool)) (s : Pool Bool (locking commands) Exc ExitCode (LockFile Bool × World)) :
    Option (Pool Bool (locking commands) Exc ExitCode (LockFile Bool × World)) :=
  Pool.playAll (handleLocking (simulateCommand ctx script unaudited)) twicePool schedule s

/-- The pool after the first part of a schedule. -/
def played (schedule : List (Pool.Move Bool)) : Option (Pool Bool (locking commands) Exc ExitCode (LockFile Bool × World)) :=
  playedFrom schedule (.idle (.unopened (some 0), world resource))

/-- The first process is inside, and the second asks for the lock. -/
def crowded : List (Pool.Move Bool) :=
  [.start false, .start true] ++ List.replicate 5 (.perform false) ++ List.replicate 2 (.perform true)

/-- The second process is refused and reports it; the first one goes on to its first statement. -/
def refusedMoves : List (Pool.Move Bool) :=
  List.replicate 4 (.perform true) ++ [.stop true] ++ List.replicate 9 (.perform false)

/-- The first process goes on to its end. -/
def lastMoves : List (Pool.Move Bool) := List.replicate 36 (.perform false) ++ [.stop false]

theorem sample_allowed (i : Bool) :
    (handleLocking (simulateCommand ctx script unaudited) i).Allowed (twicePool.env i) :=
  handleLocking_allowed (simulateCommand_allowed ctx script unaudited noFaults fun _ _ => False) i

theorem played_reaches {schedule : List (Pool.Move Bool)} {s : Pool Bool (locking commands) Exc ExitCode (LockFile Bool × World)}
    (h : played schedule = some s) : Pool.Reaches twicePool (.idle (.unopened (some 0), world resource)) s :=
  Pool.playAll_reaches sample_allowed h

/-- The exit code of a process that has returned. -/
def exitCode : Status (locking commands) Exc ExitCode → Option ExitCode
  | .ended (.returned code) => some code
  | _ => none

theorem exitCode_eq_some {p : Status (locking commands) Exc ExitCode} {code : ExitCode} (h : exitCode p = some code) :
    p = .ended (.returned code) := by
  unfold exitCode at h
  split at h
  · cases h
    rfl
  · cases h

/-- The process is about to change what the lock guards. -/
def changing : Status (locking commands) Exc ExitCode → Bool
  | .running (.call (.inr (.inr op)) _) => op.changesShared
  | _ => false

theorem exists_of_changing {p : Status (locking commands) Exc ExitCode} (h : changing p = true) :
    ∃ (op : commands.Op) (k : Except Exc ((locking commands).Reply (.inr op)) → Program (locking commands) Exc ExitCode),
      p = .running (.call (.inr op) k) ∧ ChangesShared op := by
  unfold changing at h
  split at h
  · rename_i op k
    exact ⟨.inr op, k, rfl, h⟩
  · cases h

/-- The process asks for the lock, and would not get it. -/
def refusing (f : LockFile Bool) (i : Bool) : Status (locking commands) Exc ExitCode → Bool
  | .running (.call (.inl (.flock d)) _) => ((f.execute i (.flock d)).map Prod.fst : Option Bool) = some false
  | _ => false

theorem exists_of_refusing {s : Pool Bool (locking commands) Exc ExitCode (LockFile Bool × World)} {i : Bool}
    (h : refusing s.world.1 i (s.status i) = true) :
    ∃ (d : Nat) (k : Except Exc Bool → Program (locking commands) Exc ExitCode) (s₁ : LockFile Bool × World),
      s.status i = .running (.call (.inl (.flock d)) k) ∧ twicePool.env i s.world (.inl (.flock d)) (.ok false) s₁ := by
  unfold refusing at h
  split at h
  · rename_i d k hrunning
    obtain ⟨⟨granted, f'⟩, hx, rfl⟩ := Option.map_eq_some_iff.1 (of_decide_eq_true h)
    exact ⟨d, k, (f', s.world.2), hrunning, LockFile.execute_step hx, rfl⟩
  · cases h

end CommandLineAux

/-- Of two publications at once, the first one publishes and the second one is refused. -/
theorem command_lines_serialize_twice :
    ∃ (s : Pool Bool (locking commands) Exc ExitCode (LockFile Bool × World))
      (r : List ((Bool × ServiceRequest) × Outcome Exc Bool)),
      s.status true = .ended (.returned .lockedOrTemporaryFailure) ∧
        History (service Sample.ctx noFaults) (fun x => x.2.run Sample.ctx 1) (Sample.world Sample.resource) r s.world.2 ∧
          (r.map (·.1.1)).Nodup ∧ ∃ request, ((false, request), .returned true) ∈ r := by
  have hend : (played (crowded ++ refusedMoves ++ lastMoves)).map
      (fun s => (exitCode (s.status false), exitCode (s.status true))) =
        some (some .success, some .lockedOrTemporaryFailure) := by decide +kernel
  obtain ⟨s, hs, hcodes⟩ := Option.map_eq_some_iff.1 hend
  obtain ⟨r, hr, honce, -, -, hsuccess⟩ := command_lines_serialize (played_reaches hs)
  exact ⟨s, r, exitCode_eq_some (congrArg Prod.snd hcodes), hr, honce,
    hsuccess false (exitCode_eq_some (congrArg Prod.fst hcodes)) rfl⟩

/-- Of these commands only one that runs under the lock changes what it guards, OCI, the state database, a lineage, the metrics
textfile or the staging evidence, and it holds the lock then; whatever another process is about to do changes none of them. -/
theorem commands_change_under_lock
    (h : Pool.Reaches (commandPool Γ passes faults lockFaults commandFaults loads lines) (.idle (.unopened inode, w)) s)
    {op : commands.Op} {k : Except Exc ((locking commands).Reply (.inr op)) → Program (locking commands) Exc ExitCode}
    (hi : s.status i = .running (.call (.inr op) k)) (hop : ChangesShared op) :
    (lines i).mutates = true ∧ (∃ d, s.world.1.Holds i d) ∧
      ∀ (j : ι) (op' : commands.Op)
          (k' : Except Exc ((locking commands).Reply (.inr op')) → Program (locking commands) Exc ExitCode),
        j ≠ i → s.status j = .running (.call (.inr op') k') → ¬ChangesShared op' := by
  obtain ⟨⟨body, report, hjob⟩, hholds, hothers⟩ := changes_are_exclusive (fun i => outside_job Γ passes (lines i))
    (fun _ _ _ _ hop hstep => lockless_eq hop hstep) h hi fun hlockless => not_changesShared_of_lockless hlockless hop
  refine ⟨?_, hholds, fun j op' k' hj hk => not_changesShared_of_lockless (hothers j op' k' hj hk)⟩
  revert hjob
  cases lines i <;> first | exact fun _ => rfl | exact nofun

/-- The first publication is about to write, after the second one was refused. -/
theorem commands_change_under_lock_twice :
    ∃ s : Pool Bool (locking commands) Exc ExitCode (LockFile Bool × World),
      changing (s.status false) = true ∧ ∃ d, s.world.1.Holds false d := by
  have hend : (played (crowded ++ refusedMoves)).map (fun s => changing (s.status false)) = some true := by decide +kernel
  obtain ⟨s, hs, hchanging⟩ := Option.map_eq_some_iff.1 hend
  obtain ⟨op, k, hi, hop⟩ := exists_of_changing hchanging
  exact ⟨s, hchanging, (commands_change_under_lock (played_reaches hs) hi hop).2.1⟩

/-- A command is refused the lock only while another process that is running holds it: none that has ended, was killed
or was refused leaves it locked. -/
theorem lock_refused_while_held
    (h : Pool.Reaches (commandPool Γ passes faults lockFaults commandFaults loads lines) (.idle (.unopened inode, w)) s) {d : Nat}
    {k : Except Exc Bool → Program (locking commands) Exc ExitCode} {s₁ : LockFile ι × World}
    (hi : s.status i = .running (.call (.inl (.flock d)) k))
    (hop : lockingEnv lockFaults (commandEnv Γ faults commandFaults loads) i s.world (.inl (.flock d)) (.ok false) s₁) :
    ∃ j p e, j ≠ i ∧ s.status j = .running p ∧ s.world.1.Holds j e :=
  refused_only_while_held (fun i => outside_job Γ passes (lines i)) (fun _ _ _ _ hop hstep => lockless_eq hop hstep) h hi hop

/-- The second publication asks for the lock while the first one has it. -/
theorem lock_refused_while_held_twice :
    ∃ s : Pool Bool (locking commands) Exc ExitCode (LockFile Bool × World),
      refusing s.world.1 true (s.status true) = true ∧ ∃ j p e, j ≠ true ∧ s.status j = .running p ∧ s.world.1.Holds j e := by
  have hend : (played crowded).map (fun s => refusing s.world.1 true (s.status true)) = some true := by decide +kernel
  obtain ⟨s, hs, hrefusing⟩ := Option.map_eq_some_iff.1 hend
  obtain ⟨d, k, s₁, hi, hop⟩ := exists_of_refusing hrefusing
  exact ⟨s, hrefusing, lock_refused_while_held (played_reaches hs) hi hop⟩

end OciAcmePublisher
