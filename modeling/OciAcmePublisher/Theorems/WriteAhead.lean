import OciAcmePublisher.Lemmas.WriteAhead
import OciAcmePublisher.Theorems.CommandLines

/-!
# The store is ahead of OCI

However the commands are interleaved, and wherever they are killed, a creation, an upload or a promotion that OCI has
accepted was named by an active operation row before it was asked for. So a run that is cut in between leaves a row by which
the next run finds out.
-/

namespace OciAcmePublisher

open Effects CommandLineAux WriteAhead

namespace WriteAhead

/-- An operation changes OCI once at most. -/
theorem mutations_of_service {Γ : Ctx} {faults : Faults} {w w' : World} {op : Op} {answer : Except Exc op.Reply}
    (h : service Γ faults w op answer w') : w'.mutations = w.mutations ∨ ∃ m, w'.mutations = w.mutations ++ [m] := by
  by_cases hapart : op.mutatesOci = false
  · exact Or.inl (service_certificates h hapart).2
  · rcases service_cases h with ⟨-, rfl⟩ | rfl | ⟨reply, hs⟩
    · exact Or.inl rfl
    · exact Or.inl rfl
    · cases op with
      | createImportedCertificate =>
        obtain ⟨-, v, -, rfl⟩ := hs
        exact Or.inr ⟨_, rfl⟩
      | uploadPendingVersion =>
        obtain ⟨r, r', v, -, -, -, rfl⟩ := hs
        exact Or.inr ⟨_, rfl⟩
      | promoteCurrent =>
        obtain ⟨r, r', -, -, rfl⟩ := hs
        exact Or.inr ⟨_, rfl⟩
      | scheduleVersionDeletion =>
        obtain ⟨r, -, rfl⟩ := hs
        exact Or.inr ⟨_, rfl⟩
      | _ => exact absurd rfl hapart

variable {ι : Type} [DecidableEq ι] {Γ : Ctx} {passes : Nat} {faults : Faults} {lockFaults : LockOp → Exc → Prop}
  {commandFaults : CommandOp → Exc → Prop} {loads : String → AppConfig → Prop} {lines : ι → CommandLine} {inode : Option Nat}
  {w : World} {s s' : Pool ι (locking commands) Exc ExitCode (LockFile ι × World)}

/-- A step of a command keeps the lineages parsed. -/
theorem parsed_of_command {w w' : World} {op : commands.Op} {answer : Except Exc (commands.Reply op)} (hw : w.Parsed Γ)
    (h : commandEnv Γ faults commandFaults loads w op answer w') : w'.Parsed Γ := by
  cases op with
  | inl op =>
    rw [console_eq h]
    exact hw
  | inr op => exact parsed_of_service hw h

/-- Every operation of a command under the lock journals. -/
theorem command_journals (line : CommandLine) :
    Guarded (commandEnv Γ faults commandFaults loads) (fun w w' => Journals Γ w w' ∧ w'.Parsed Γ) (World.Parsed Γ)
      (line.job Γ passes).body (fun _ _ => True) fun _ _ => True := by
  have hkeeps : Keeps (restricting (commandEnv Γ faults commandFaults loads) fun w _ => w.Parsed Γ) (Journals Γ)
      (line.job Γ passes).body :=
    ServicesKeep.command id (fun _ => True) (fun _ _ _ _ => trivial)
      (fun _ _ _ _ h => by rw [console_eq h.1]; exact journals_of_apart rfl) (fun _ _ _ _ h => h) fun config _ =>
      (parts_journal Γ faults).services passes config
  exact (Guarded.of_restricting (fun _ _ _ _ hw h => parsed_of_command hw h) hkeeps).conseq (fun _ hw => ⟨hw, trivial⟩)
    (fun _ _ _ => trivial) fun _ _ _ => trivial

/-- A step of a process changes nothing in OCI, or something that is journaled unless it schedules a deletion. -/
theorem step_journaled (hw : w.Parsed Γ)
    (h : Pool.Reaches (commandPool Γ passes faults lockFaults commandFaults loads lines) (.idle (.unopened inode, w)) s)
    (h' : Pool.Step (commandPool Γ passes faults lockFaults commandFaults loads lines) s s') :
    s'.world.2.mutations = s.world.2.mutations ∨ ∃ m, s'.world.2.mutations = s.world.2.mutations ++ [m] ∧
      (m.schedulesDeletion = false → m.Journaled Γ s.world.2 s'.world.2) := by
  have honce : s'.world.2.mutations = s.world.2.mutations ∨ ∃ m, s'.world.2.mutations = s.world.2.mutations ++ [m] := by
    cases h' with
    | start | stop => exact Or.inl rfl
    | outside hout => exact Or.inl (congrArg World.mutations hout.2)
    | @perform i op k r s₁ hi hop =>
      cases op with
      | inl op => exact Or.inl (congrArg World.mutations hop.2)
      | inr op =>
        cases op with
        | inl op => exact Or.inl (congrArg World.mutations (console_eq hop.2))
        | inr op => exact mutations_of_service hop.2
  have hkeeps : s'.world.2 = s.world.2 ∨ Journals Γ s.world.2 s'.world.2 ∧ s'.world.2.Parsed Γ :=
    Serialized.step_keeps (I := World.Parsed Γ) (fun i => outside_job Γ passes (lines i))
      (fun _ _ _ _ hop hstep => lockless_eq hop hstep) (fun i => command_journals (lines i)) (fun _ _ _ hG => hG.2) hw h h'
  rcases honce with hsame | ⟨m, hm⟩
  · exact Or.inl hsame
  · rcases hkeeps with heq | ⟨hjournals, -⟩
    · exact Or.inl (congrArg World.mutations heq)
    · exact Or.inr ⟨m, hm, hjournals m hm⟩

end WriteAhead

variable {ι : Type} [DecidableEq ι] {Γ : Ctx} {passes : Nat} {faults : Faults} {lockFaults : LockOp → Exc → Prop}
  {commandFaults : CommandOp → Exc → Prop} {loads : String → AppConfig → Prop} {lines : ι → CommandLine} {inode : Option Nat}
  {w : World} {s : Pool ι (locking commands) Exc ExitCode (LockFile ι × World)}

/-- Of every creation, upload and promotion that OCI has accepted in an interleaving of commands, the store named it, in an active
row with the fingerprint of what was created or uploaded, at the moment before, when OCI had accepted the earlier changes only. -/
theorem changes_are_journaled (hw : w.Parsed Γ)
    (h : Pool.Reaches (commandPool Γ passes faults lockFaults commandFaults loads lines) (.idle (.unopened inode, w)) s) :
    ∃ changes, s.world.2.mutations = w.mutations ++ changes ∧
      ∀ before m after, changes = before ++ m :: after → m.schedulesDeletion = false → ∃ s₀ s₁,
        Pool.Reaches (commandPool Γ passes faults lockFaults commandFaults loads lines) (.idle (.unopened inode, w)) s₀ ∧
          Pool.Step (commandPool Γ passes faults lockFaults commandFaults loads lines) s₀ s₁ ∧
            Pool.Reaches (commandPool Γ passes faults lockFaults commandFaults loads lines) s₁ s ∧
              s₀.world.2.mutations = w.mutations ++ before ∧ s₁.world.2.mutations = w.mutations ++ before ++ [m] ∧
                m.Journaled Γ s₀.world.2 s₁.world.2 := by
  induction h with
  | refl => exact ⟨[], (List.append_nil _).symm, fun before m after hempty => by simp at hempty⟩
  | @tail s' s'' hpast hlast ih =>
    obtain ⟨changes, hchanges, hnamed⟩ := ih
    rcases step_journaled hw hpast hlast with hsame | ⟨m, hm, hjournaled⟩
    · refine ⟨changes, by rw [hsame, hchanges], fun before m after hsplit hkept => ?_⟩
      obtain ⟨s₀, s₁, hs₀, hstep, hrest, hrow⟩ := hnamed before m after hsplit hkept
      exact ⟨s₀, s₁, hs₀, hstep, hrest.tail hlast, hrow⟩
    · refine ⟨changes ++ [m], by rw [hm, hchanges, List.append_assoc], fun before m' after hsplit hkept => ?_⟩
      rcases List.eq_nil_or_concat after with rfl | ⟨after, last, rfl⟩
      · -- the last change: the store named it where the step began
        obtain ⟨rfl, hlastm⟩ := List.append_inj' hsplit rfl
        cases hlastm
        exact ⟨s', s'', hpast, hlast, .refl, hchanges, by rw [hm, hchanges], hjournaled hkept⟩
      · have hsplit' : changes ++ [m] = (before ++ m' :: after) ++ [last] := by simpa using hsplit
        obtain ⟨s₀, s₁, hs₀, hstep, hrest, hrow⟩ := hnamed before m' after (List.append_inj' hsplit' rfl).1 hkept
        exact ⟨s₀, s₁, hs₀, hstep, hrest.tail hlast, hrow⟩

/-- The lineage of the sample world is parsed from its PEM files. -/
theorem WriteAhead.parsed_world : (Sample.world Sample.resource).Parsed Sample.ctx := by
  intro id material (hmaterial : (if id = "web" then some Sample.material else none) = some material)
  split at hmaterial
  · obtain rfl := Option.some.inj hmaterial
    exact (by decide : parseMaterial Sample.ctx [66] [73] [75] = some Sample.material)
  · cases hmaterial

/-- The upload of one of two publications at once: a row names it first, with the fingerprint of the version it uploads. -/
theorem changes_are_journaled_twice :
    ∃ s₀ s₁ : Pool Bool (locking commands) Exc ExitCode (LockFile Bool × World), s₀.world.2.mutations = [] ∧
      ∃ row ∈ s₀.world.2.database.operations.rows, row.state = .ociReconciled ∧ row.ociCertificateOcid = some "ocid" ∧
        ∃ fingerprint r, row.localFingerprint = some fingerprint ∧ s₁.world.2.certificates "ocid" = some r ∧
          ∃ v ∈ r.versions.rows, v.number = 2 ∧ v.fingerprint Sample.ctx = some fingerprint := by
  have hend : (played (crowded ++ refusedMoves ++ lastMoves)).map (fun s => s.world.2.mutations) =
      some [.uploaded "ocid" 2, .promoted "ocid" 2] := by decide +kernel
  obtain ⟨s, hs, hmutations⟩ := Option.map_eq_some_iff.1 hend
  obtain ⟨changes, hchanges, hnamed⟩ := changes_are_journaled parsed_world (played_reaches hs)
  have hsplit : changes = [] ++ .uploaded "ocid" 2 :: [.promoted "ocid" 2] := by
    rw [hmutations] at hchanges
    exact hchanges.symm
  obtain ⟨s₀, s₁, -, -, -, hempty, -, row, hrow, hstate, hocid, -, huploaded⟩ := hnamed _ _ _ hsplit rfl
  exact ⟨s₀, s₁, hempty, row, hrow, hstate, hocid, huploaded⟩

end OciAcmePublisher
