import OciAcmePublisher.Effects.Concurrency
import OciAcmePublisher.Effects.Sums
import OciAcmePublisher.Errors

/-!
# The publisher lock

`locking`: the advisory lock that a mutating command holds from its first operation to its last. The lock belongs to the
inode that was opened and to the descriptor that took it, and the kernel drops it with the descriptor, also when the
process is killed.
-/

namespace OciAcmePublisher

open Effects

/-- `LockUnavailableError`. -/
def lockUnavailableError : Exc := .of .lockUnavailableError "publisher lock is already held"

/-- The system calls on the lock file. -/
inductive LockOp where
  | makeParents
  | openFile
  | flock (descriptor : Nat)
  | unlock (descriptor : Nat)
  | close (descriptor : Nat)
  deriving DecidableEq, Repr

/-- The type of a call's replies. A `flock` that would block answers `false`: `BlockingIOError` is told apart from other
errors. -/
@[reducible] def LockOp.Reply : LockOp → Type
  | .openFile => Nat
  | .flock _ => Bool
  | .makeParents | .unlock _ | .close _ => Unit

@[reducible] def lockCalls : Signature where
  Op := LockOp
  Reply := LockOp.Reply

/-- The signature `S` with the calls on the lock file. -/
abbrev locking (S : Signature) : Signature := lockCalls.sum S

namespace AdvisoryLock

variable {S : Signature} {α : Type}

/-- A call on the lock file. -/
def call (op : LockOp) : Program (locking S) Exc op.Reply := Program.perform (S := locking S) (.inl op)

/-- `acquire`: the non-blocking exclusive lock, or a stable error. -/
def acquire : Program (locking S) Exc Nat := do
  call .makeParents
  let descriptor ← call .openFile
  let granted ← call (.flock descriptor)
  if granted = true then return descriptor
  else do
    call (.close descriptor)
    .raise lockUnavailableError

/-- `release`. -/
def release (descriptor : Nat) : Program (locking S) Exc Unit := do
  call (.unlock descriptor)
  call (.close descriptor)

/-- `with AdvisoryLock(path): body`. -/
def hold (body : Program S Exc α) : Program (locking S) Exc α := do
  let descriptor ← acquire
  body.right.ensure (release descriptor)

end AdvisoryLock

/-! ## The kernel's side -/

/-- The inode the path names, what the processes have open, and the descriptor that holds the lock of an inode. -/
structure LockFile (ι : Type) where
  inode : Option Nat
  opened : ι → Nat → Option Nat
  holder : Nat → Option (ι × Nat)

namespace LockFile

variable {ι : Type} [DecidableEq ι]

/-- Nobody has the file open, whether it exists or not. -/
def unopened (inode : Option Nat) : LockFile ι where
  inode := inode
  opened _ _ := none
  holder _ := none

/-- An open with `O_CREAT` may give the inode `n`. -/
def Names (f : LockFile ι) (n : Nat) : Prop :=
  f.inode = some n ∨ f.inode = none ∧ ∀ i d, f.opened i d ≠ some n

def opening (f : LockFile ι) (i : ι) (d n : Nat) : LockFile ι :=
  { f with inode := some n, opened := Function.update f.opened i (Function.update (f.opened i) d (some n)) }

def granting (f : LockFile ι) (i : ι) (d n : Nat) : LockFile ι :=
  { f with holder := Function.update f.holder n (some (i, d)) }

def releasing (f : LockFile ι) (i : ι) (d : Nat) : LockFile ι :=
  { f with holder := fun n => if f.holder n = some (i, d) then none else f.holder n }

/-- A closed descriptor holds no lock. -/
def closing (f : LockFile ι) (i : ι) (d : Nat) : LockFile ι :=
  { f.releasing i d with opened := Function.update f.opened i (Function.update (f.opened i) d none) }

/-- The end of a process closes what it has open. -/
def leaving (f : LockFile ι) (i : ι) : LockFile ι where
  inode := f.inode
  opened := Function.update f.opened i fun _ => none
  holder n := if (f.holder n).any (·.1 = i) then none else f.holder n

/-- The path is removed, while nobody has the file open. -/
def Removed (f f' : LockFile ι) : Prop := (∀ i d, f.opened i d = none) ∧ f' = { f with inode := none }

/-- What a call of the process `i` answers and leaves. A failed call leaves everything as it was, but a failed `close`
has closed. -/
def Step (faults : LockOp → Exc → Prop) (i : ι) (f : LockFile ι) : (op : LockOp) → Except Exc op.Reply → LockFile ι → Prop
  | .makeParents, .ok _, f' => f' = f
  | .openFile, .ok d, f' => f.opened i d = none ∧ ∃ n, f.Names n ∧ f' = f.opening i d n
  | .flock d, .ok granted, f' => ∃ n, f.opened i d = some n ∧
      if granted = true then (∀ h, f.holder n = some h → h = (i, d)) ∧ f' = f.granting i d n
      else (∃ h, f.holder n = some h ∧ h ≠ (i, d)) ∧ f' = f
  | .unlock d, .ok _, f' => f' = f.releasing i d
  | .close d, .ok _, f' => f' = f.closing i d
  | .close d, .error x, f' => faults (.close d) x ∧ f' = f.closing i d
  | op, .error x, f' => faults op x ∧ f' = f

/-- What is open is what the path names, and a lock is held by a descriptor of its inode. -/
structure Sound (f : LockFile ι) : Prop where
  named : ∀ i d n, f.opened i d = some n → f.inode = some n
  held : ∀ n i d, f.holder n = some (i, d) → f.opened i d = some n

/-- The process holds the lock with the descriptor. -/
def Holds (f : LockFile ι) (i : ι) (d : Nat) : Prop := ∃ n, f.opened i d = some n ∧ f.holder n = some (i, d)

end LockFile

/-- The calls on the lock file among the operations of `S`, for one of the processes. -/
def lockingEnv {ι W : Type} {S : Signature} [DecidableEq ι] (faults : LockOp → Exc → Prop) (env : Env S Exc W) (i : ι) :
    Env (locking S) Exc (LockFile ι × W)
  | s, .inl op, answer, s' => LockFile.Step faults i s.1 op answer s'.1 ∧ s'.2 = s.2
  | s, .inr op, answer, s' => s'.1 = s.1 ∧ env s.2 op answer s'.2

/-! ## Processes -/

/-- What a process runs: a command under the lock, with what it makes of the command's end, or a program that takes no lock. -/
inductive Job (S : Signature) (β α : Type) where
  | locked (body : Program S Exc β) (report : Except Exc β → Program S Exc α)
  | free (p : Program S Exc α)

namespace Job

variable {S : Signature} {β α : Type}

def program : Job S β α → Program (locking S) Exc α
  | .locked body report => (AdvisoryLock.hold body).attempt.bind fun ended => (report ended).right
  | .free p => p.right

/-- What runs under the lock. -/
def body : Job S β α → Program S Exc β
  | .locked body _ => body
  | .free _ => .diverge

/-- What runs without the lock uses no other operations. -/
def Outside (A : S.Op → Prop) : Job S β α → Prop
  | .locked _ report => ∀ ended, (report ended).Uses A
  | .free p => p.Uses A

end Job

/-! ## Processes that share the lock file -/

section Pool

variable {ι W β α : Type} {S : Signature}

/-- Processes that run jobs over one world and one lock file, which nobody removes while it is open. -/
def lockedPool [DecidableEq ι] (faults : LockOp → Exc → Prop) (env : Env S Exc W) (jobs : ι → Job S β α) :
    Pool.Setting ι (locking S) Exc α (LockFile ι × W) where
  env := lockingEnv faults env
  leaves i s := (s.1.leaving i, s.2)
  outside s s' := s.1.Removed s'.1 ∧ s'.2 = s.2
  programs i := (jobs i).program

/-- What a process that returned `a` has done: it took the lock once, for its command, or it never got it. -/
inductive Job.Reported (faults : LockOp → Exc → Prop) (l : List (ι × Outcome Exc β)) (i : ι) : Job S β α → α → Prop where
  | ran {body : Program S Exc β} {report : Except Exc β → Program S Exc α} {a : α} (ended : Except Exc β) :
      (i, .ofExcept ended) ∈ l → (report ended).MayReturn a → Reported faults l i (.locked body report) a
  | unreleased {body : Program S Exc β} {report : Except Exc β → Program S Exc α} {a : α} (op : LockOp) (x : Exc) :
      i ∈ l.map Prod.fst → faults op x → (report (.error x)).MayReturn a → Reported faults l i (.locked body report) a
  | refused {body : Program S Exc β} {report : Except Exc β → Program S Exc α} {a : α} (x : Exc) :
      i ∉ l.map Prod.fst → (x = lockUnavailableError ∨ ∃ op, faults op x) → (report (.error x)).MayReturn a →
        Reported faults l i (.locked body report) a
  | free {p : Program S Exc α} {a : α} : Reported faults l i (.free p) a

end Pool

end OciAcmePublisher
