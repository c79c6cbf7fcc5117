import OciAcmePublisher.Lemmas.LockFile

/-!
# What processes under one lock have done

At every moment, what the commands have done under the lock is a history of whole or cut runs, but for the one that is inside.
-/

namespace OciAcmePublisher

open Effects

variable {ι W β α : Type} {S : Signature}

namespace Serialized

open AdvisoryLock

variable {faults : LockOp → Exc → Prop} {env : Env S Exc W} {jobs : ι → Job S β α} {A : S.Op → Prop}
  {body : Program S Exc β} {report : Except Exc β → Program S Exc α} {i j : ι} {d : Nat} {f f' : LockFile ι} {w w₁ : W}
  {l l' : List (ι × Outcome Exc β)}

/-! ## Where a process is -/

/-- The rest of a command, from a part of its acquisition on. -/
def framed (body : Program S Exc β) (report : Except Exc β → Program S Exc α) (p : Program (locking S) Exc Nat) :
    Program (locking S) Exc α :=
  (p.bind fun d => body.right.ensure (release d)).attempt.bind fun ended => (report ended).right

/-- The rest of a command that is inside: `q` is left of its body. -/
def inside (report : Except Exc β → Program S Exc α) (d : Nat) (q : Program S Exc β) : Program (locking S) Exc α :=
  (q.right.ensure (release d)).attempt.bind fun ended => (report ended).right

/-- A body that has ended. -/
def ofEnded : Except Exc β → Program S Exc β
  | .ok b => .ret b
  | .error x => .raise x

/-- The acquisition, once the file is open. -/
def taking (d : Nat) : Program (locking S) Exc Nat := do
  let granted ← call (.flock d)
  if granted = true then return d
  else do
    call (.close d)
    .raise lockUnavailableError

/-- The acquisition, once the directory is there. -/
def opening : Program (locking S) Exc Nat := (call .openFile).bind taking

/-- The operation is in `A`, not on the lock file. -/
def apart (A : S.Op → Prop) : (locking S).Op → Prop
  | .inl _ => False
  | .inr op => A op

/-- The rest of a command that closes the lock file, to report `ended`. -/
def closing (report : Except Exc β → Program S Exc α) (d : Nat) (ended : Except Exc β) : Program (locking S) Exc α :=
  .call (.inl (.close d)) fun
    | .ok _ => (report ended).right
    | .error x => (report (.error x)).right

/-- A process that is not inside: it has not got there, or it is past it. -/
inductive Waiting (faults : LockOp → Exc → Prop) (A : S.Op → Prop) (f : LockFile ι) (l : List (ι × Outcome Exc β)) (i : ι)
    (job : Job S β α) : Program (locking S) Exc α → Prop where
  | acquiring (body : Program S Exc β) (report : Except Exc β → Program S Exc α) : job = .locked body report →
      i ∉ l.map Prod.fst → (∀ e, f.opened i e = none) → Waiting faults A f l i job (framed body report acquire)
  | opening (body : Program S Exc β) (report : Except Exc β → Program S Exc α) : job = .locked body report →
      i ∉ l.map Prod.fst → (∀ e, f.opened i e = none) → Waiting faults A f l i job (framed body report opening)
  | taking (body : Program S Exc β) (report : Except Exc β → Program S Exc α) (d : Nat) : job = .locked body report →
      i ∉ l.map Prod.fst → (∀ e, f.opened i e ≠ none → e = d) → Waiting faults A f l i job (framed body report (taking d))
  | closing (body : Program S Exc β) (report : Except Exc β → Program S Exc α) (d : Nat) (ended : Except Exc β) :
      job = .locked body report → (∀ a, (report ended).MayReturn a → job.Reported faults l i a) →
        (∀ x, faults (.close d) x → ∀ a, (report (.error x)).MayReturn a → job.Reported faults l i a) →
          Waiting faults A f l i job (closing report d ended)
  | apart (p : Program (locking S) Exc α) : p.Uses (apart A) → p.Yields (job.Reported faults l i) →
      Waiting faults A f l i job p

/-- The process that is inside. -/
structure Inside (env : Env S Exc W) (f : LockFile ι) (w₁ w : W) (l : List (ι × Outcome Exc β)) (i : ι) (job : Job S β α)
    (body : Program S Exc β) (report : Except Exc β → Program S Exc α) (d : Nat) (q : Program S Exc β) : Prop where
  job : job = .locked body report
  fresh : i ∉ l.map Prod.fst
  holds : f.Holds i d
  left : Left env body w₁ q w

/-- What is reported is reported of a longer history, in which the process has not run again. -/
theorem reported_snoc {job : Job S β α} {a : α} {o : Outcome Exc β} (hij : i ≠ j) (h : job.Reported faults l i a) :
    job.Reported faults (l ++ [(j, o)]) i a := by
  cases h with
  | ran ended hmem hret => exact .ran ended (List.mem_append_left _ hmem) hret
  | unreleased op x hi hx hret =>
    refine .unreleased op x ?_ hx hret
    rw [List.map_append]
    exact List.mem_append_left _ hi
  | refused x hi hx hret =>
    refine .refused x ?_ hx hret
    rw [List.map_append, List.mem_append]
    rintro (h | h)
    · exact hi h
    · exact hij (List.mem_singleton.1 h)
  | free => exact .free

theorem not_mem_snoc {o : Outcome Exc β} (hij : i ≠ j) (h : i ∉ l.map Prod.fst) : i ∉ (l ++ [(j, o)]).map Prod.fst := by
  rw [List.map_append, List.mem_append]
  rintro (h' | h')
  · exact h h'
  · exact hij (List.mem_singleton.1 h')

theorem nodup_snoc {o : Outcome Exc β} (hl : (l.map Prod.fst).Nodup) (h : i ∉ l.map Prod.fst) :
    ((l ++ [(i, o)]).map Prod.fst).Nodup := by
  rw [List.map_append]
  refine List.nodup_append.2 ⟨hl, by simp, fun a ha b hb => ?_⟩
  rw [List.mem_singleton.1 hb]
  rintro rfl
  exact h ha

/-- A process that waits goes on waiting while the others move on. -/
theorem Waiting.mono {job : Job S β α} {p : Program (locking S) Exc α} (h : Waiting faults A f l i job p)
    (hopened : f'.opened i = f.opened i) (hfresh : i ∉ l.map Prod.fst → i ∉ l'.map Prod.fst)
    (hreported : ∀ a, job.Reported faults l i a → job.Reported faults l' i a) : Waiting faults A f' l' i job p := by
  cases h with
  | acquiring body report hjob hi hnone => exact .acquiring body report hjob (hfresh hi) (by rw [hopened]; exact hnone)
  | opening body report hjob hi hnone => exact .opening body report hjob (hfresh hi) (by rw [hopened]; exact hnone)
  | taking body report d hjob hi hd => exact .taking body report d hjob (hfresh hi) (by rw [hopened]; exact hd)
  | closing body report d ended hjob hended hfault =>
    exact .closing body report d ended hjob (fun a ha => hreported a (hended a ha)) fun x hx a ha =>
      hreported a (hfault x hx a ha)
  | apart p huses hyields => exact .apart p huses (hyields.mono hreported)

/-- A report after the body, or instead of it. -/
theorem waiting_report {job : Job S β α} {e : Except Exc β} (hjob : job = .locked body report) (hA : job.Outside A)
    (h : ∀ a, (report e).MayReturn a → job.Reported faults l i a) : Waiting faults A f l i job (report e).right := by
  subst hjob
  exact .apart _ (Program.uses_right (hA e)) (Program.yields_right ((report e).yields_mayReturn.mono h))

/-! ## The operations of a process -/

theorem framed_acquire : framed body report acquire = .call (.inl .makeParents) fun
    | .ok _ => framed body report opening
    | .error x => (report (.error x)).right := by
  show Program.call _ _ = _
  congr 1
  funext r
  cases r <;> rfl

theorem framed_opening : framed body report opening = .call (.inl .openFile) fun
    | .ok d => framed body report (taking d)
    | .error x => (report (.error x)).right := by
  show Program.call _ _ = _
  congr 1
  funext r
  cases r <;> rfl

/-- The rest of a command after its `flock`. -/
def flocked (body : Program S Exc β) (report : Except Exc β → Program S Exc α) (d : Nat) : Except Exc Bool →
    Program (locking S) Exc α
  | .ok true => inside report d body
  | .ok false => closing report d (.error lockUnavailableError)
  | .error x => (report (.error x)).right

theorem framed_taking : framed body report (taking d) = .call (.inl (.flock d)) (flocked body report d) := by
  show Program.call _ _ = _
  congr 1
  funext r
  cases r with
  | error x => rfl
  | ok granted =>
    cases (granted : Bool) with
    | true => rfl
    | false =>
      show Program.call _ _ = Program.call _ _
      congr 1
      funext r
      cases r <;> rfl

theorem inside_ended (ended : Except Exc β) : inside report d (ofEnded ended) = .call (.inl (.unlock d)) fun
    | .ok _ => closing report d ended
    | .error x => (report (.error x)).right := by
  cases ended <;>
  · show Program.call _ _ = Program.call _ _
    congr 1
    funext r
    cases r with
    | error x => rfl
    | ok _ =>
      show Program.call _ _ = Program.call _ _
      congr 1
      funext r
      cases r <;> rfl

/-! ## The invariant -/

variable [DecidableEq ι] {start : W} {s s' : Pool ι (locking S) Exc α (LockFile ι × W)} {cur cur' : Option ι}

/-- What the processes have done is a history, but for the one that is inside. -/
structure Serial (faults : LockOp → Exc → Prop) (env : Env S Exc W) (jobs : ι → Job S β α) (A : S.Op → Prop) (start : W)
    (s : Pool ι (locking S) Exc α (LockFile ι × W)) (l : List (ι × Outcome Exc β)) (w₁ : W) (cur : Option ι) : Prop where
  sound : s.world.1.Sound
  past : History env (fun i => (jobs i).body) start l w₁
  once : (l.map Prod.fst).Nodup
  unstarted : ∀ i, s.status i = .idle → i ∉ l.map Prod.fst
  closed : ∀ i, (∀ p, s.status i ≠ .running p) → ∀ d, s.world.1.opened i d = none
  ended : ∀ i a, s.status i = .ended (.returned a) → (jobs i).Reported faults l i a
  waiting : ∀ i p, s.status i = .running p → cur ≠ some i → Waiting faults A s.world.1 l i (jobs i) p
  current : ∀ i, cur = some i → ∃ body report d q, s.status i = .running (inside report d q) ∧
    Inside env s.world.1 w₁ s.world.2 l i (jobs i) body report d q
  alone : cur = none → s.world.2 = w₁

/-- One process moves on. -/
theorem Serial.moved (h : Serial faults env jobs A start s l w₁ cur) {status : Status (locking S) Exc α} {w' w₁' : W}
    (hsound : f'.Sound) (hpast : History env (fun i => (jobs i).body) start l' w₁') (honce : (l'.map Prod.fst).Nodup)
    (hopened : ∀ j, j ≠ i → f'.opened j = s.world.1.opened j)
    (hfresh : ∀ j, j ≠ i → j ∉ l.map Prod.fst → j ∉ l'.map Prod.fst)
    (hreported : ∀ j, j ≠ i → ∀ a, (jobs j).Reported faults l j a → (jobs j).Reported faults l' j a)
    (hstay : ∀ j, j ≠ i → cur = some j → cur' = some j)
    (hother : ∀ j, j ≠ i → cur' = some j → cur = some j ∧ w' = s.world.2 ∧ w₁' = w₁ ∧ l' = l ∧
      ∀ d, s.world.1.Holds j d → f'.Holds j d)
    (hidle : status ≠ .idle) (hclosed : (∀ p, status ≠ .running p) → ∀ d, f'.opened i d = none)
    (hended : ∀ a, status = .ended (.returned a) → (jobs i).Reported faults l' i a)
    (hwaiting : ∀ p, status = .running p → cur' ≠ some i → Waiting faults A f' l' i (jobs i) p)
    (hcurrent : cur' = some i → ∃ body report d q, status = .running (inside report d q) ∧
      Inside env f' w₁' w' l' i (jobs i) body report d q)
    (halone : cur' = none → w' = w₁') : Serial faults env jobs A start (s.move i (f', w') status) l' w₁' cur' where
  sound := hsound
  past := hpast
  once := honce
  unstarted j hj := by
    by_cases hij : j = i
    · subst hij
      rw [Pool.move_same] at hj
      exact absurd hj hidle
    · rw [Pool.move_other hij] at hj
      exact hfresh j hij (h.unstarted j hj)
  closed j hj d := by
    by_cases hij : j = i
    · subst hij
      rw [Pool.move_same] at hj
      exact hclosed hj d
    · rw [Pool.move_other hij] at hj
      show f'.opened j d = none
      rw [hopened j hij]
      exact h.closed j hj d
  ended j a hj := by
    by_cases hij : j = i
    · subst hij
      rw [Pool.move_same] at hj
      exact hended a hj
    · rw [Pool.move_other hij] at hj
      exact hreported j hij a (h.ended j a hj)
  waiting j p hj hcur := by
    by_cases hij : j = i
    · subst hij
      rw [Pool.move_same] at hj
      cases hj
      exact hwaiting p rfl hcur
    · rw [Pool.move_other hij] at hj
      exact (h.waiting j p hj fun hold => hcur (hstay j hij hold)).mono (hopened j hij) (hfresh j hij) (hreported j hij)
  current j hj := by
    by_cases hij : j = i
    · subst hij
      rw [Pool.move_same]
      exact hcurrent hj
    · rw [Pool.move_other hij]
      obtain ⟨hold, rfl, rfl, rfl, hholds⟩ := hother j hij hj
      obtain ⟨body, report, d, q, hq, hinside⟩ := h.current j hold
      exact ⟨body, report, d, q, hq, hinside.job, hinside.fresh, hholds d hinside.holds, hinside.left⟩
  alone := halone

/-- A process that waits moves on, and goes on waiting or ends. -/
theorem Serial.waits (h : Serial faults env jobs A start s l w₁ cur) (hcur : cur ≠ some i)
    {status : Status (locking S) Exc α} (hsound : f'.Sound) (hopened : ∀ j, j ≠ i → f'.opened j = s.world.1.opened j)
    (hholds : ∀ j, j ≠ i → ∀ d, s.world.1.Holds j d → f'.Holds j d) (hidle : status ≠ .idle)
    (hclosed : (∀ p, status ≠ .running p) → ∀ d, f'.opened i d = none)
    (hended : ∀ a, status = .ended (.returned a) → (jobs i).Reported faults l i a)
    (hwaiting : ∀ p, status = .running p → Waiting faults A f' l i (jobs i) p) :
    Serial faults env jobs A start (s.move i (f', s.world.2) status) l w₁ cur :=
  h.moved hsound h.past h.once hopened (fun _ _ h => h) (fun _ _ _ h => h) (fun _ _ h => h)
    (fun j hj hjcur => ⟨hjcur, rfl, rfl, rfl, hholds j hj⟩) hidle hclosed hended
    (fun p hp _ => hwaiting p hp) (fun hi => absurd hi hcur) h.alone

/-- The process that is inside leaves, its body ended or cut. -/
theorem Serial.leaves (h : Serial faults env jobs A start s l w₁ (some i)) {status : Status (locking S) Exc α}
    {o : Outcome Exc β} (hbody : Exec env (jobs i).body w₁ o s.world.2) (hfresh : i ∉ l.map Prod.fst) (hsound : f'.Sound)
    (hopened : ∀ j, j ≠ i → f'.opened j = s.world.1.opened j) (hidle : status ≠ .idle)
    (hclosed : (∀ p, status ≠ .running p) → ∀ d, f'.opened i d = none) (hended : ∀ a, status ≠ .ended (.returned a))
    (hwaiting : ∀ p, status = .running p → Waiting faults A f' (l ++ [(i, o)]) i (jobs i) p) :
    Serial faults env jobs A start (s.move i (f', s.world.2) status) (l ++ [(i, o)]) s.world.2 none := by
  refine h.moved hsound (h.past.snoc hbody) ?_ hopened (fun j hj => not_mem_snoc hj) (fun j hj _ => reported_snoc hj)
    (fun j hj hjcur => absurd (Option.some.inj hjcur).symm hj) (fun j _ hjcur => by cases hjcur)
    hidle hclosed (fun a ha => absurd ha (hended a)) (fun p hp _ => hwaiting p hp) (fun hi => by cases hi)
    fun _ => rfl
  exact nodup_snoc h.once hfresh

/-! ## Steps -/

variable {op : (locking S).Op} {k : Except Exc ((locking S).Reply op) → Program (locking S) Exc α}
  {r : Except Exc ((locking S).Reply op)} {s₁ : LockFile ι × W}

/-- A waiting process makes a call on the lock file, and goes on waiting. -/
theorem Serial.calls (h : Serial faults env jobs A start s l w₁ cur) (hcur : cur ≠ some i) {op : LockOp}
    {answer : Except Exc op.Reply} (hstep : LockFile.Step faults i s.world.1 op answer f') {p : Program (locking S) Exc α}
    (hwaiting : Waiting faults A f' l i (jobs i) p) :
    Serial faults env jobs A start (s.move i (f', s.world.2) (.running p)) l w₁ cur :=
  h.waits hcur (h.sound.step hstep) (fun j hj => (hstep.other (d := 0) hj).1) (fun j hj d hd => hd.step hstep hj) nofun
    (fun hp => absurd rfl (hp _)) nofun (by rintro _ ⟨⟩; exact hwaiting)

/-- Whoever is given the lock finds nobody inside. -/
theorem Serial.granted (h : Serial faults env jobs A start s l w₁ cur) (hcur : cur ≠ some i)
    (hstep : LockFile.Step faults i s.world.1 (.flock d) (.ok true) f') : f'.Holds i d ∧ cur = none := by
  obtain ⟨n, hopened, hfree, rfl⟩ := id hstep
  have hholds : (s.world.1.granting i d n).Holds i d := ⟨n, hopened, Function.update_self ..⟩
  refine ⟨hholds, ?_⟩
  cases hc : cur with
  | none => rfl
  | some j =>
    obtain ⟨body, report, e, q, -, hinside⟩ := h.current j hc
    have hj : j ≠ i := by
      rintro rfl
      exact hcur hc
    exact absurd ((hinside.holds.step hstep hj).unique (h.sound.step hstep) hholds) hj

/-- The process enters. -/
theorem Serial.enters (h : Serial faults env jobs A start s l w₁ cur) (hcur : cur ≠ some i)
    (hjob : jobs i = .locked body report) (hfresh : i ∉ l.map Prod.fst)
    (hstep : LockFile.Step faults i s.world.1 (.flock d) (.ok true) f') :
    Serial faults env jobs A start (s.move i (f', s.world.2) (.running (inside report d body))) l w₁ (some i) := by
  obtain ⟨hholds, rfl⟩ := h.granted hcur hstep
  refine h.moved (h.sound.step hstep) h.past h.once (fun j hj => (hstep.other (d := 0) hj).1) (fun _ _ h => h) (fun _ _ _ h => h)
    (fun j _ hj => by cases hj) (fun j hj hji => absurd (Option.some.inj hji).symm hj) nofun (fun hp => absurd rfl (hp _)) nofun
    (fun _ _ hne => absurd rfl hne) (fun _ => ⟨body, report, d, body, rfl, hjob, hfresh, hholds, ?_⟩) nofun
  rw [h.alone rfl]
  exact .whole

/-- An operation of a process that is not inside. -/
theorem Serial.performs_waiting (h : Serial faults env jobs A start s l w₁ cur) (hA : ∀ i, (jobs i).Outside A)
    (hquiet : ∀ op w r w', A op → env w op r w' → w' = w) (hcur : cur ≠ some i) (hp : s.status i = .running (.call op k))
    (hop : lockingEnv faults env i s.world op r s₁) :
    ∃ cur', Serial faults env jobs A start (s.move i s₁ (.running (k r))) l w₁ cur' := by
  have hw := h.waiting i _ hp hcur
  obtain ⟨f', w'⟩ := s₁
  generalize hcall : Program.call op k = p at hw
  cases hw with
  | acquiring body report hjob hfresh hnone =>
    rw [framed_acquire] at hcall
    cases hcall
    obtain ⟨hstep, rfl⟩ := hop
    cases r with
    | ok _ =>
      refine ⟨cur, h.calls hcur hstep (.opening body report hjob hfresh ?_)⟩
      rw [show f' = s.world.1 from hstep]
      exact hnone
    | error x =>
      exact ⟨cur, h.calls hcur hstep (waiting_report hjob (hA i) fun a ha => by
        rw [hjob]
        exact .refused x hfresh (Or.inr ⟨_, hstep.1⟩) ha)⟩
  | opening body report hjob hfresh hnone =>
    rw [framed_opening] at hcall
    cases hcall
    obtain ⟨hstep, rfl⟩ := hop
    cases r with
    | ok d =>
      refine ⟨cur, h.calls hcur hstep (.taking body report d hjob hfresh ?_)⟩
      intro e he
      obtain ⟨-, n, -, heq⟩ := hstep
      have heq : f' = s.world.1.opening i d n := heq
      by_contra hne
      refine he ?_
      rw [heq, LockFile.opening_opened_ne hne]
      exact hnone e
    | error x =>
      exact ⟨cur, h.calls hcur hstep (waiting_report hjob (hA i) fun a ha => by
        rw [hjob]
        exact .refused x hfresh (Or.inr ⟨_, hstep.1⟩) ha)⟩
  | taking body report d hjob hfresh hd =>
    rw [framed_taking] at hcall
    cases hcall
    obtain ⟨hstep, rfl⟩ := hop
    have hrefused : ∀ x, (x = lockUnavailableError ∨ ∃ op, faults op x) → ∀ a, (report (.error x)).MayReturn a →
        (jobs i).Reported faults l i a := by
      intro x hx a ha
      rw [hjob]
      exact .refused x hfresh hx ha
    cases r with
    | ok granted =>
      cases (granted : Bool) with
      | true => exact ⟨some i, h.enters hcur hjob hfresh hstep⟩
      | false =>
        exact ⟨cur, h.calls hcur hstep (.closing body report d _ hjob (hrefused _ (Or.inl rfl)) fun x hx =>
          hrefused x (Or.inr ⟨_, hx⟩))⟩
    | error x => exact ⟨cur, h.calls hcur hstep (waiting_report hjob (hA i) (hrefused x (Or.inr ⟨_, hstep.1⟩)))⟩
  | closing body report d ended hjob hended hfault =>
    cases hcall
    obtain ⟨hstep, rfl⟩ := hop
    cases r with
    | ok _ => exact ⟨cur, h.calls hcur hstep (waiting_report hjob (hA i) hended)⟩
    | error x => exact ⟨cur, h.calls hcur hstep (waiting_report hjob (hA i) (hfault x hstep.1))⟩
  | apart p huses hyields =>
    subst hcall
    cases op with
    | inl op => exact absurd huses.1 id
    | inr op =>
      obtain ⟨rfl, hop⟩ := hop
      cases hquiet op _ _ _ huses.1 hop
      exact ⟨cur, h.waits hcur h.sound (fun _ _ => rfl) (fun _ _ _ hd => hd) nofun (fun hp => absurd rfl (hp _)) nofun
        (by rintro _ ⟨⟩; exact .apart _ (huses.2 r) (hyields r))⟩

theorem inside_call {op : S.Op} {k : Except Exc (S.Reply op) → Program S Exc β} :
    inside report d (.call op k) = .call (.inr op) fun r => inside report d (k r) := rfl

theorem left_ended {ended : Except Exc β} (h : Left env body w₁ (ofEnded ended) w) : Exec env body w₁ (.ofExcept ended) w := by
  cases ended with
  | ok b => exact h.stopped (.ret b)
  | error x => exact h.stopped (.raise x)

/-- The body has ended, and the lock is released. -/
theorem Serial.unlocks (h : Serial faults env jobs A start s l w₁ (some i)) (hA : ∀ i, (jobs i).Outside A)
    (hjob : jobs i = .locked body report) (hfresh : i ∉ l.map Prod.fst) {ended : Except Exc β}
    (hleft : Left env body w₁ (ofEnded ended) s.world.2) (hcall : .call op k = inside report d (ofEnded ended))
    (hop : lockingEnv faults env i s.world op r s₁) :
    Serial faults env jobs A start (s.move i s₁ (.running (k r))) (l ++ [(i, .ofExcept ended)]) s.world.2 none := by
  have hbody : Exec env (jobs i).body w₁ (.ofExcept ended) s.world.2 := by
    rw [hjob]
    exact left_ended hleft
  have hmem : (i, .ofExcept ended) ∈ l ++ [(i, Outcome.ofExcept ended)] := by simp
  have hran : ∀ a, (report ended).MayReturn a → (jobs i).Reported faults (l ++ [(i, .ofExcept ended)]) i a := by
    intro a ha
    rw [hjob]
    exact .ran ended hmem ha
  have hfault : ∀ op x, faults op x → ∀ a, (report (.error x)).MayReturn a →
      (jobs i).Reported faults (l ++ [(i, .ofExcept ended)]) i a := by
    intro op x hx a ha
    rw [hjob]
    exact .unreleased op x (List.mem_map.2 ⟨_, hmem, rfl⟩) hx ha
  obtain ⟨f', w'⟩ := s₁
  rw [inside_ended] at hcall
  cases hcall
  obtain ⟨hstep, rfl⟩ := hop
  refine h.leaves hbody hfresh (h.sound.step hstep) (fun j hj => (hstep.other (d := 0) hj).1) nofun
    (fun hp => absurd rfl (hp _)) nofun ?_
  rintro _ ⟨⟩
  cases r with
  | ok _ => exact .closing body report d ended hjob hran (hfault _)
  | error x => exact waiting_report hjob (hA i) (hfault _ x hstep.1)

/-- An operation of the process that is inside. -/
theorem Serial.performs_inside (h : Serial faults env jobs A start s l w₁ (some i)) (hA : ∀ i, (jobs i).Outside A)
    (hp : s.status i = .running (.call op k)) (hop : lockingEnv faults env i s.world op r s₁) :
    ∃ l' w₁' cur', Serial faults env jobs A start (s.move i s₁ (.running (k r))) l' w₁' cur' := by
  obtain ⟨body, report, d, q, hq, hjob, hfresh, hholds, hleft⟩ := h.current i rfl
  rw [hp] at hq
  have hcall : Program.call op k = inside report d q := Status.running.inj hq
  cases q with
  | ret b =>
    have hended : Left env body w₁ (ofEnded (.ok b)) s.world.2 := hleft
    exact ⟨_, _, _, h.unlocks hA hjob hfresh hended hcall hop⟩
  | raise x =>
    have hended : Left env body w₁ (ofEnded (.error x)) s.world.2 := hleft
    exact ⟨_, _, _, h.unlocks hA hjob hfresh hended hcall hop⟩
  | diverge => cases hcall
  | call op' k' =>
    obtain ⟨f', w'⟩ := s₁
    rw [inside_call] at hcall
    cases hcall
    obtain ⟨heq, hop⟩ := hop
    have heq : f' = s.world.1 := heq
    subst heq
    refine ⟨l, w₁, some i, h.moved h.sound h.past h.once (fun _ _ => rfl) (fun _ _ h => h) (fun _ _ _ h => h) (fun _ _ h => h)
      (fun j hj hji => absurd (Option.some.inj hji).symm hj) nofun (fun hp => absurd rfl (hp _)) nofun
      (fun _ _ hne => absurd rfl hne) (fun _ => ?_) nofun⟩
    exact ⟨body, report, d, k' r, rfl, hjob, hfresh, hholds, hleft.call hop⟩

/-- The end of a process that is not inside. -/
theorem Serial.stops_waiting (h : Serial faults env jobs A start s l w₁ cur) (hcur : cur ≠ some i) {p : Program (locking S) Exc α}
    {o : Outcome Exc α} (hp : s.status i = .running p) (hstop : p.Stops o) :
    Serial faults env jobs A start (s.move i (s.world.1.leaving i, s.world.2) (.ended o)) l w₁ cur := by
  refine h.waits hcur h.sound.leaving (fun j hj => LockFile.opened_other hj) (fun j hj d hd => hd.leaving hj) nofun
    (fun _ => LockFile.leaving_opened _ i) ?_ nofun
  intro a ha
  cases ha
  have hw := h.waiting i p hp hcur
  cases hstop with
  | ret a =>
    generalize hret : Program.ret a = q at hw
    cases hw with
    | apart p huses hyields =>
      subst hret
      exact hyields
    | acquiring | opening | taking | closing => cases hret

/-- The process that is inside can only be killed there. -/
theorem Serial.stops_inside (h : Serial faults env jobs A start s l w₁ (some i)) {p : Program (locking S) Exc α}
    {o : Outcome Exc α} (hp : s.status i = .running p) (hstop : p.Stops o) :
    Serial faults env jobs A start (s.move i (s.world.1.leaving i, s.world.2) (.ended o)) (l ++ [(i, .crashed)])
    s.world.2 none := by
  obtain ⟨body, report, d, q, hq, hjob, hfresh, hholds, hleft⟩ := h.current i rfl
  rw [hp] at hq
  have hinside : p = inside report d q := Status.running.inj hq
  have hbody : Exec env (jobs i).body w₁ .crashed s.world.2 := by
    rw [hjob]
    exact hleft.cut
  refine h.leaves hbody hfresh h.sound.leaving (fun j hj => LockFile.opened_other hj) nofun
    (fun _ => LockFile.leaving_opened _ i) ?_ nofun
  rintro a ⟨⟩
  cases hstop
  cases q <;> cases hinside

omit [DecidableEq ι] in
/-- The lock file is removed. -/
theorem Serial.removed (h : Serial faults env jobs A start s l w₁ cur) (hf : s.world.1.Removed f') :
    Serial faults env jobs A start { s with world := (f', s.world.2) } l w₁ cur where
  sound := h.sound.removed hf
  past := h.past
  once := h.once
  unstarted := h.unstarted
  closed := by
    obtain ⟨-, rfl⟩ := hf
    exact h.closed
  ended := h.ended
  waiting i p hp hcur := by
    obtain ⟨-, rfl⟩ := hf
    exact (h.waiting i p hp hcur).mono rfl id fun _ => id
  current i hi := by
    obtain ⟨body, report, d, q, -, hinside⟩ := h.current i hi
    obtain ⟨n, hopened, -⟩ := hinside.holds
    rw [hf.1] at hopened
    cases hopened
  alone := h.alone

/-- Every step of the processes keeps what they have done a history. -/
theorem Serial.step (hA : ∀ i, (jobs i).Outside A) (hquiet : ∀ op w r w', A op → env w op r w' → w' = w)
    (h : Serial faults env jobs A start s l w₁ cur) (hstep : Pool.Step (lockedPool faults env jobs) s s') :
    ∃ l' w₁' cur', Serial faults env jobs A start s' l' w₁' cur' := by
  have hinside : ∀ i, cur = some i → ∃ p, s.status i = .running p := by
    intro i hi
    obtain ⟨_, _, _, _, hp, _⟩ := h.current i hi
    exact ⟨_, hp⟩
  cases hstep with
  | start i hidle =>
    have hcur : cur ≠ some i := by
      intro hi
      obtain ⟨p, hp⟩ := hinside i hi
      rw [hidle] at hp
      cases hp
    have hfresh := h.unstarted i hidle
    have hnone : ∀ d, s.world.1.opened i d = none := h.closed i (by rw [hidle]; exact nofun)
    refine ⟨l, w₁, cur, h.waits hcur h.sound (fun _ _ => rfl) (fun _ _ _ hd => hd) nofun (fun hp => absurd rfl (hp _)) nofun ?_⟩
    rintro _ ⟨⟩
    show Waiting faults A s.world.1 l i (jobs i) (jobs i).program
    have hAi := hA i
    cases hjob : jobs i with
    | locked body report => exact .acquiring body report rfl hfresh hnone
    | free p =>
      rw [hjob] at hAi
      exact .apart _ (Program.uses_right hAi) (Program.yields_right (p.yields_mayReturn.mono fun _ _ => .free))
  | perform i hp hop =>
    by_cases hi : cur = some i
    · subst hi
      exact h.performs_inside hA hp hop
    · obtain ⟨cur', h'⟩ := h.performs_waiting hA hquiet hi hp hop
      exact ⟨l, w₁, cur', h'⟩
  | stop i hp hstop =>
    by_cases hi : cur = some i
    · subst hi
      exact ⟨_, _, _, h.stops_inside hp hstop⟩
    · exact ⟨l, w₁, cur, h.stops_waiting hi hp hstop⟩
  | outside hout =>
    rename_i s₁
    obtain ⟨f', w'⟩ := s₁
    obtain ⟨hf, rfl⟩ := hout
    exact ⟨l, w₁, cur, h.removed hf⟩

omit [DecidableEq ι] in
theorem serial_idle (inode : Option Nat) (w : W) :
    Serial faults env jobs A w (.idle (.unopened inode, w)) [] w none where
  sound := LockFile.sound_unopened inode
  past := .nil w
  once := List.nodup_nil
  unstarted _ _ := List.not_mem_nil
  closed _ _ _ := rfl
  ended _ _ h := by cases h
  waiting _ _ h := by cases h
  current _ h := by cases h
  alone _ := rfl

theorem Serial.reaches (hA : ∀ i, (jobs i).Outside A) (hquiet : ∀ op w r w', A op → env w op r w' → w' = w)
    {inode : Option Nat} {w : W} (h : Pool.Reaches (lockedPool faults env jobs) (.idle (.unopened inode, w)) s) :
    ∃ l w₁ cur, Serial faults env jobs A w s l w₁ cur :=
  h.keeps (I := fun s => ∃ l w₁ cur, Serial faults env jobs A w s l w₁ cur)
    (fun _ _ ⟨_, _, _, hs⟩ hstep => hs.step hA hquiet hstep) ⟨[], w, none, serial_idle inode w⟩

/-! ## What is about to happen -/

omit [DecidableEq ι] in
/-- Only the process that is inside performs other operations than those of `A`. -/
theorem Waiting.performs {job : Job S β α} {op : S.Op} {k : Except Exc (S.Reply op) → Program (locking S) Exc α}
    (h : Waiting faults A f l i job (.call (.inr op) k)) : A op := by
  generalize hcall : Program.call (S := locking S) (.inr op) k = p at h
  cases h with
  | acquiring => rw [framed_acquire] at hcall; cases hcall
  | opening => rw [framed_opening] at hcall; cases hcall
  | taking => rw [framed_taking] at hcall; cases hcall
  | closing => cases hcall
  | apart p huses =>
    subst hcall
    exact huses.1

omit [DecidableEq ι] in
/-- A process that asks for the lock has one descriptor open. -/
theorem Waiting.flocks {job : Job S β α} {k : Except Exc Bool → Program (locking S) Exc α}
    (h : Waiting faults A f l i job (.call (.inl (.flock d)) k)) : ∀ e, f.opened i e ≠ none → e = d := by
  generalize hcall : Program.call (S := locking S) (.inl (.flock d)) k = p at h
  cases h with
  | acquiring => rw [framed_acquire] at hcall; cases hcall
  | opening => rw [framed_opening] at hcall; cases hcall
  | taking _ _ _ _ _ honly =>
    rw [framed_taking] at hcall
    cases hcall
    exact honly
  | closing => cases hcall
  | apart p huses =>
    subst hcall
    exact absurd huses.1 id

theorem inside_ne_flock {q : Program S Exc β} {e : Nat} {k : Except Exc Bool → Program (locking S) Exc α} :
    .call (.inl (.flock e)) k ≠ inside report d q := by
  intro hcall
  cases q with
  | ret b =>
    rw [show inside report d (.ret b) = inside report d (ofEnded (.ok b)) from rfl, inside_ended] at hcall
    cases hcall
  | raise x =>
    rw [show inside report d (.raise x) = inside report d (ofEnded (.error x)) from rfl, inside_ended] at hcall
    cases hcall
  | diverge => cases hcall
  | call op k' => cases hcall

/-! ## What the steps keep to -/

variable {G : W → W → Prop} {I : W → Prop} {w' : W}

omit [DecidableEq ι] in
/-- What every operation of the commands keeps, their history keeps. -/
theorem history_keeps (hbody : ∀ i, Guarded env G I (jobs i).body (fun _ _ => True) fun _ _ => True)
    (hG : ∀ a b, I a → G a b → I b) (h : History env (fun i => (jobs i).body) w l w') (hw : I w) : I w' := by
  refine h.keeps (fun i w o w' hi hx => ?_) hw
  exact (hx.guaranteed (hbody i w hi)).1.invariant (I := I) (fun a op r b ha hop => hG a b ha hop.2) hi

/-- An operation changes the world as the guarantee of the commands says, or not at all. -/
theorem Serial.performs_keeps (h : Serial faults env jobs A start s l w₁ cur)
    (hquiet : ∀ op w r w', A op → env w op r w' → w' = w)
    (hbody : ∀ i, Guarded env G I (jobs i).body (fun _ _ => True) fun _ _ => True) (hw₁ : I w₁)
    (hp : s.status i = .running (.call op k)) (hop : lockingEnv faults env i s.world op r s₁) :
    s₁.2 = s.world.2 ∨ G s.world.2 s₁.2 := by
  cases op with
  | inl op => exact Or.inl hop.2
  | inr op =>
    by_cases hcur : cur = some i
    · obtain ⟨body, report, d, q, hq, hjob, -, -, hleft⟩ := h.current i hcur
      have hguard : body.Guarantees env G (fun _ _ => True) (fun _ _ => True) w₁ := by
        have hi := hbody i w₁ hw₁
        rw [hjob] at hi
        exact hi
      rw [hp] at hq
      have hcall : Program.call (S := locking S) (.inr op) k = inside report d q := Status.running.inj hq
      cases q with
      | ret b =>
        rw [show inside report d (.ret b) = inside report d (ofEnded (.ok b)) from rfl, inside_ended] at hcall
        cases hcall
      | raise x =>
        rw [show inside report d (.raise x) = inside report d (ofEnded (.error x)) from rfl, inside_ended] at hcall
        cases hcall
      | diverge => cases hcall
      | call op' k' =>
        rw [inside_call] at hcall
        cases hcall
        exact Or.inr (hleft.guarantees hguard _ _ hop.2).1
    · exact Or.inl (hquiet op _ _ _ (h.waiting i _ hp hcur).performs hop.2)

/-- A step of any process changes the world as the guarantee of the commands says, or not at all. -/
theorem step_keeps (hA : ∀ i, (jobs i).Outside A) (hquiet : ∀ op w r w', A op → env w op r w' → w' = w)
    (hbody : ∀ i, Guarded env G I (jobs i).body (fun _ _ => True) fun _ _ => True) (hI : ∀ a b, I a → G a b → I b)
    {inode : Option Nat} {w : W} (hw : I w) (h : Pool.Reaches (lockedPool faults env jobs) (.idle (.unopened inode, w)) s)
    (h' : Pool.Step (lockedPool faults env jobs) s s') : s'.world.2 = s.world.2 ∨ G s.world.2 s'.world.2 := by
  obtain ⟨l, w₁, cur, hserial⟩ := Serial.reaches hA hquiet h
  cases h' with
  | start | stop => exact Or.inl rfl
  | perform j hp hop => exact hserial.performs_keeps hquiet hbody (history_keeps hbody hI hserial.past hw) hp hop
  | outside hout => exact Or.inl hout.2

/-- Between any two moments the world has changed as the guarantee of the commands says. -/
theorem reaches_keeps (hA : ∀ i, (jobs i).Outside A) (hquiet : ∀ op w r w', A op → env w op r w' → w' = w)
    (hbody : ∀ i, Guarded env G I (jobs i).body (fun _ _ => True) fun _ _ => True) (hI : ∀ a b, I a → G a b → I b)
    {R : W → W → Prop} (hrefl : ∀ a, R a a) (htrans : ∀ a b c, R a b → R b c → R a c) (hG : ∀ a b, I a → G a b → R a b)
    {inode : Option Nat} {w : W} (hw : I w) (h : Pool.Reaches (lockedPool faults env jobs) (.idle (.unopened inode, w)) s)
    (h' : Pool.Reaches (lockedPool faults env jobs) s s') : I s.world.2 ∧ I s'.world.2 ∧ R s.world.2 s'.world.2 := by
  have hkeep : ∀ {s₁ s₂ : Pool ι (locking S) Exc α (LockFile ι × W)}, I s₁.world.2 →
      s₂.world.2 = s₁.world.2 ∨ G s₁.world.2 s₂.world.2 → I s₂.world.2 ∧ R s₁.world.2 s₂.world.2 := by
    rintro s₁ s₂ hs₁ (heq | hg)
    · rw [heq]
      exact ⟨hs₁, hrefl _⟩
    · exact ⟨hI _ _ hs₁ hg, hG _ _ hs₁ hg⟩
  have hall : ∀ {s₁}, Pool.Reaches (lockedPool faults env jobs) (.idle (.unopened inode, w)) s₁ → I s₁.world.2 := by
    intro s₁ hs₁
    induction hs₁ with
    | refl => exact hw
    | tail hpast hlast ih => exact (hkeep ih (step_keeps hA hquiet hbody hI hw hpast hlast)).1
  induction h' with
  | refl => exact ⟨hall h, hall h, hrefl _⟩
  | tail hpast hlast ih =>
    have hnext := hkeep ih.2.1 (step_keeps hA hquiet hbody hI hw (h.trans hpast) hlast)
    exact ⟨ih.1, hnext.1, htrans _ _ _ ih.2.2 hnext.2⟩

end Serialized

end OciAcmePublisher
