import OciAcmePublisher.CommandLine
import OciAcmePublisher.Simulation

/-!
# Commands that can be run

The calls on the lock file are executed and the services simulated, so that an interleaving of commands can be computed.
-/

namespace OciAcmePublisher

open Effects

variable {ι W : Type} [DecidableEq ι] {S : Signature}

/-- The reply of a call on an existing lock file and the file it leaves; none where the call cannot take effect. Every
process opens one descriptor. -/
def LockFile.execute (f : LockFile ι) (i : ι) : (op : LockOp) → Option (op.Reply × LockFile ι)
  | .makeParents => some ((), f)
  | .openFile => f.inode.bind fun n => if f.opened i 3 = none then some (3, f.opening i 3 n) else none
  | .flock d => (f.opened i d).bind fun n =>
    match f.holder n with
    | none => some (true, f.granting i d n)
    | some h => if h = (i, d) then some (true, f.granting i d n) else some (false, f)
  | .unlock d => some ((), f.releasing i d)
  | .close d => some ((), f.closing i d)

theorem LockFile.execute_step {faults : LockOp → Exc → Prop} {f f' : LockFile ι} {i : ι} {op : LockOp} {reply : op.Reply}
    (h : f.execute i op = some (reply, f')) : LockFile.Step faults i f op (.ok reply) f' := by
  cases op with
  | openFile =>
    obtain ⟨n, hn, h⟩ := Option.bind_eq_some_iff.1 h
    split at h
    · rename_i hclosed
      cases h
      exact ⟨hclosed, n, Or.inl hn, rfl⟩
    · cases h
  | flock d =>
    obtain ⟨n, hn, h⟩ := Option.bind_eq_some_iff.1 h
    refine ⟨n, hn, ?_⟩
    split at h
    · rename_i hfree
      cases h
      exact ⟨by rw [hfree]; exact nofun, rfl⟩
    · rename_i holder hheld
      split at h
      · rename_i hown
        cases h
        refine ⟨fun other hother => ?_, rfl⟩
        rw [hheld] at hother
        cases hother
        exact hown
      · rename_i hother
        cases h
        exact ⟨⟨holder, hheld, hother⟩, rfl⟩
  | makeParents | unlock | close =>
    cases h
    rfl

/-- The calls on the lock file are executed, the other operations handled. -/
def handleLocking (h : Handler S Exc W) (i : ι) : Handler (locking S) Exc (LockFile ι × W) := fun s op =>
  match op with
  | .inl op => (s.1.execute i op).map fun (reply, f') => (.ok reply, (f', s.2))
  | .inr op => (h s.2 op).map fun (answer, w') => (answer, (s.1, w'))

theorem handleLocking_allowed {faults : LockOp → Exc → Prop} {env : Env S Exc W} {h : Handler S Exc W} (hh : h.Allowed env)
    (i : ι) :
    (handleLocking h i).Allowed (lockingEnv faults env i) := by
  intro s op answer s' hs
  cases op with
  | inl op =>
    obtain ⟨⟨reply, f'⟩, hx, heq⟩ := Option.map_eq_some_iff.1 hs
    cases heq
    exact ⟨LockFile.execute_step hx, rfl⟩
  | inr op =>
    obtain ⟨⟨r, w'⟩, hx, heq⟩ := Option.map_eq_some_iff.1 hs
    cases heq
    exact ⟨rfl, hh _ _ _ _ hx⟩

/-- A command's own operations succeed, and every file holds the configuration. -/
def simulateCommand (Γ : Ctx) (script : Script) (config : AppConfig) : Handler commands Exc World := fun w op =>
  match op with
  | .inl op => some (.ok (match op with
    | .loadConfig _ => config
    | .timedatectl => some (0, "yes")
    | .isDir _ => true
    | .request .. => "HTTP/1.1 200 ".toUTF8.toList
    | .configureLogging _ | .logEvent .. | .writeConfiguredMetrics _ | .writeEvidence .. | .print _ | .printLine _ => ()), w)
  | .inr op => simulate Γ script w op

theorem simulateCommand_allowed (Γ : Ctx) (script : Script) (config : AppConfig) (faults : Faults)
    (commandFaults : CommandOp → Exc → Prop) :
    (simulateCommand Γ script config).Allowed (commandEnv Γ faults commandFaults fun _ c => c = config) := by
  intro w op answer w' h
  cases op with
  | inl op =>
    cases h
    cases op with
    | loadConfig path => exact ⟨rfl, rfl⟩
    | _ => rfl
  | inr op => exact simulate_allowed Γ script faults _ _ _ _ h

end OciAcmePublisher
