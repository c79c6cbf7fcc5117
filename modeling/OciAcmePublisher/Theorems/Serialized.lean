import OciAcmePublisher.Lemmas.Serialized

/-!
# Commands under the lock run one after the other

However the processes are interleaved, and wherever they are killed, what the commands do under the lock is what a
history of whole or cut runs does, one after the other: the order is that in which they took the lock.
-/

namespace OciAcmePublisher

open Effects

variable {ι W β α : Type} {S : Signature} [DecidableEq ι] {faults : LockOp → Exc → Prop} {env : Env S Exc W}
  {jobs : ι → Job S β α} {A : S.Op → Prop} {inode : Option Nat} {w : W} {s : Pool ι (locking S) Exc α (LockFile ι × W)} {i : ι}

/-- The world is always one that a history of runs under the lock leads to, of every process at most one. A process that
has returned reports the end of its own run, or has not run at all. -/
theorem locked_runs_serialize (hA : ∀ i, (jobs i).Outside A) (hquiet : ∀ op w r w', A op → env w op r w' → w' = w)
    (h : Pool.Reaches (lockedPool faults env jobs) (.idle (.unopened inode, w)) s) :
    ∃ l, History env (fun i => (jobs i).body) w l s.world.2 ∧ (l.map Prod.fst).Nodup ∧
      (∀ i, s.status i = .idle → i ∉ l.map Prod.fst) ∧
        ∀ i a, s.status i = .ended (.returned a) → (jobs i).Reported faults l i a := by
  obtain ⟨l, w₁, cur, hs⟩ := Serialized.Serial.reaches hA hquiet h
  cases cur with
  | none =>
    rw [hs.alone rfl]
    exact ⟨l, hs.past, hs.once, hs.unstarted, hs.ended⟩
  | some i =>
    -- the run that is inside is cut where it is
    obtain ⟨body, report, d, q, hq, hjob, hfresh, -, hleft⟩ := hs.current i rfl
    have hcut : Exec env (jobs i).body w₁ .crashed s.world.2 := by
      rw [hjob]
      exact hleft.cut
    have hother : ∀ j status, s.status j = status → (∀ p, status ≠ .running p) → j ≠ i := by
      rintro j _ rfl hj rfl
      exact hj _ hq
    refine ⟨l ++ [(i, .crashed)], hs.past.snoc hcut, Serialized.nodup_snoc hs.once hfresh, fun j hj => ?_, fun j a hj => ?_⟩
    · exact Serialized.not_mem_snoc (hother j _ hj nofun) (hs.unstarted j hj)
    · exact Serialized.reported_snoc (hother j _ hj nofun) (hs.ended j a hj)

/-- A process that is about to change the world holds the lock, and no other process is about to. -/
theorem changes_are_exclusive (hA : ∀ i, (jobs i).Outside A) (hquiet : ∀ op w r w', A op → env w op r w' → w' = w)
    (h : Pool.Reaches (lockedPool faults env jobs) (.idle (.unopened inode, w)) s) {op : S.Op}
    {k : Except Exc ((locking S).Reply (.inr op)) → Program (locking S) Exc α} (hi : s.status i = .running (.call (.inr op) k))
    (hop : ¬A op) :
    (∃ body report, jobs i = .locked body report) ∧ (∃ d, s.world.1.Holds i d) ∧ ∀ (j : ι) (op' : S.Op)
    (k' : Except Exc ((locking S).Reply (.inr op')) → Program (locking S) Exc α),
      j ≠ i → s.status j = .running (.call (.inr op') k') → A op' := by
  obtain ⟨l, w₁, cur, hs⟩ := Serialized.Serial.reaches hA hquiet h
  have hcur : cur = some i := by
    by_contra hne
    exact hop (hs.waiting i _ hi hne).performs
  subst hcur
  obtain ⟨body, report, d, q, -, hinside⟩ := hs.current i rfl
  exact ⟨⟨body, report, hinside.job⟩, ⟨d, hinside.holds⟩, fun j op' k' hji hj =>
    (hs.waiting j _ hj fun heq => hji (Option.some.inj heq).symm).performs⟩

/-- The lock is refused only while another process that is running holds it: nothing stays locked behind a process that
has ended, was killed or has not got the lock. -/
theorem refused_only_while_held (hA : ∀ i, (jobs i).Outside A) (hquiet : ∀ op w r w', A op → env w op r w' → w' = w)
    (h : Pool.Reaches (lockedPool faults env jobs) (.idle (.unopened inode, w)) s) {d : Nat}
    {k : Except Exc ((locking S).Reply (.inl (.flock d))) → Program (locking S) Exc α} {s₁ : LockFile ι × W}
    (hi : s.status i = .running (.call (.inl (.flock d)) k))
    (hop : lockingEnv faults env i s.world (.inl (.flock d)) (.ok false) s₁) :
    ∃ j p e, j ≠ i ∧ s.status j = .running p ∧ s.world.1.Holds j e := by
  obtain ⟨l, w₁, cur, hs⟩ := Serialized.Serial.reaches hA hquiet h
  have honly : ∀ e, s.world.1.opened i e ≠ none → e = d := by
    refine (hs.waiting i _ hi fun hcur => ?_).flocks
    obtain ⟨body, report, e, q, hq, -⟩ := hs.current i hcur
    rw [hi] at hq
    exact Serialized.inside_ne_flock (Status.running.inj hq)
  obtain ⟨⟨n, -, ⟨⟨j, e⟩, hheld, hne⟩, -⟩, -⟩ := hop
  have hopened := hs.sound.held n j e hheld
  have hrunning : ∃ p, s.status j = .running p := by
    by_contra hidle
    have hnone := hs.closed j (fun p hp => hidle ⟨p, hp⟩) e
    rw [hopened] at hnone
    cases hnone
  obtain ⟨p, hp⟩ := hrunning
  refine ⟨j, p, e, ?_, hp, n, hopened, hheld⟩
  rintro rfl
  rw [honly e (by rw [hopened]; exact nofun)] at hne
  exact hne rfl

end OciAcmePublisher
