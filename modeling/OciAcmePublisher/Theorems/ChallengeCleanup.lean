import OciAcmePublisher.ChallengeFiles
import OciAcmePublisher.Lemmas.Footprints
import OciAcmePublisher.Simulation

/-!
# Challenge files that outlive their call

A call removes the challenges it has written. A write that fails before the temporary file has its final name leaves that file: neither
the writer nor its callers know of it any more.
-/

namespace OciAcmePublisher

open Effects NativeAcmeService

/-- The operation works on the temporary file of a challenge, which is there. -/
def ChallengeFileOp.staged : ChallengeFileOp → Bool
  | .write .. | .geteuid | .publisherUid | .fchown .. | .fsync _ | .close _ | .replace .. => true
  | _ => false

namespace ChallengeCleanupAux

variable {config : AppConfig} {certificate : CertificateConfig} {Γ : Ctx} {force : Bool}

/-- The directory, with what was done in it. -/
abbrev Log := WebrootFiles × List (Event challengeFiles Exc)

/-- Something failed while a temporary file was there. -/
def Spoiled (t : List (Event challengeFiles Exc)) : Prop := ∃ e ∈ t, e.op.staged = true ∧ ∃ x, e.answer = .error x

/-- What the call has created is at the paths, and no write was spoiled. -/
def Tidy (paths : List String) (v : Log) : Prop := (∀ path, v.1 path = some .call → path ∈ paths) ∧ ¬Spoiled v.2

/-- A path of no challenge: its file name has a dot. -/
def Dotted (config : AppConfig) (certificate : CertificateConfig) (path : String) : Prop :=
  ∀ token, isToken token = true → path ≠ challengePath config certificate token

/-- A temporary file is left of a write that was spoiled. -/
def Littered (config : AppConfig) (certificate : CertificateConfig) (v : Log) : Prop :=
  (∃ path, Dotted config certificate path ∧ v.1 path = some .call) ∧ Spoiled v.2

/-! ### File names -/

theorem isToken_iff {token : String} : isToken token = true → '/' ∉ token.toList ∧ '.' ∉ token.toList := by
  intro h
  unfold isToken at h
  rw [Bool.and_eq_true, List.all_eq_true] at h
  constructor
  · intro hmem
    have hchar := h.2 _ hmem
    revert hchar
    decide
  · intro hmem
    have hchar := h.2 _ hmem
    revert hchar
    decide

theorem takeWhile_reverse {directory token : List Char} (h : '/' ∉ token) :
    ((directory ++ '/' :: token).reverse.takeWhile (· ≠ '/')) = token.reverse ∧
      ((directory ++ '/' :: token).reverse.dropWhile (· ≠ '/')) = '/' :: directory.reverse := by
  have htoken : ∀ c ∈ token.reverse, decide (c ≠ '/') = true := by
    intro c hc
    rw [decide_eq_true_iff]
    rintro rfl
    exact h (List.mem_reverse.1 hc)
  rw [List.reverse_append, List.reverse_cons, List.append_assoc, List.takeWhile_append_of_pos htoken,
    List.dropWhile_append_of_pos htoken]
  simp

/-- The directory of the challenges of a certificate. -/
def challengeDirectory (config : AppConfig) (certificate : CertificateConfig) : List Char :=
  (config.http01.webrootBase ++ "/" ++ certificate.webrootId ++ "/.well-known/acme-challenge").toList

theorem challengePath_toList (token : String) :
    (challengePath config certificate token).toList = challengeDirectory config certificate ++ '/' :: token.toList := by
  simp [challengePath, challengeDirectory]

/-- The temporary file of a challenge has the name of no challenge. -/
theorem dotted_temporary {token : String} (htoken : isToken token = true) (suffix : String) :
    Dotted config certificate (withName (challengePath config certificate token)
      ("." ++ fileName (challengePath config certificate token) ++ "." ++ suffix)) := by
  intro other hother heq
  have hlists := congrArg String.toList heq
  unfold withName at hlists
  rw [challengePath_toList, challengePath_toList, (takeWhile_reverse (isToken_iff htoken).1).2] at hlists
  simp only [String.toList_append, String.toList_ofList, List.reverse_cons, List.reverse_reverse, List.append_assoc,
    List.append_cancel_left_eq, List.cons_append, List.nil_append, List.cons.injEq, true_and] at hlists
  refine (isToken_iff hother).2 ?_
  rw [← hlists]
  exact List.mem_append_left _ (by decide)

/-! ### One write -/

variable {path temporary : String} {paths : List String} {v : Log}

/-- The temporary file of a write is there, besides the files at the paths. -/
def Staging (temporary : String) (paths : List String) (v : Log) : Prop :=
  v.1 temporary = some .call ∧ (∀ path, path ≠ temporary → v.1 path = some .call → path ∈ paths) ∧ ¬Spoiled v.2

theorem spoiled_snoc {t : List (Event challengeFiles Exc)} {e : Event challengeFiles Exc} :
    Spoiled (t ++ [e]) ↔ Spoiled t ∨ (e.op.staged = true ∧ ∃ x, e.answer = .error x) := by
  unfold Spoiled
  simp [or_and_right, exists_or]

theorem not_spoiled_ok {t : List (Event challengeFiles Exc)} (h : ¬Spoiled t) (op : ChallengeFileOp) (reply : challengeFiles.Reply op) :
    ¬Spoiled (t ++ [⟨op, .ok reply⟩]) := by
  rw [spoiled_snoc]
  rintro (ht | ⟨-, x, hx⟩)
  · exact h ht
  · cases hx

theorem not_spoiled_unstaged {t : List (Event challengeFiles Exc)} (h : ¬Spoiled t) {op : ChallengeFileOp}
    (hop : op.staged = false) (answer : Except Exc (challengeFiles.Reply op)) : ¬Spoiled (t ++ [⟨op, answer⟩]) := by
  rw [spoiled_snoc]
  rintro (ht | ⟨hstaged, -⟩)
  · exact h ht
  · rw [hop] at hstaged
    cases hstaged

/-- The operation leaves the directory as it is. -/
def Still (op : ChallengeFileOp) : Prop := ∀ (w : WebrootFiles) reply w', w.Step op reply w' → w' = w

theorem still_perform {op : ChallengeFileOp} (hstill : Still op) {P Q E : Log → Prop}
    (hok : ∀ w t reply, P (w, t) → Q (w, t ++ [⟨op, .ok reply⟩])) (herr : ∀ w t x, P (w, t) → E (w, t ++ [⟨op, .error x⟩])) :
    Triple (recording webroot) P (challengeFile op) (fun _ => Q) (fun _ => E) fun _ => True := by
  refine Triple.perform (fun _ _ => trivial) ?_ ?_
  · rintro ⟨w, t⟩ reply ⟨w', t'⟩ hv ⟨hstep, rfl⟩
    obtain rfl : w' = w := hstill _ _ _ hstep
    exact ⟨hok _ _ _ hv, trivial⟩
  · rintro ⟨w, t⟩ x ⟨w', t'⟩ hv ⟨⟨hkeep, -⟩, rfl⟩
    obtain rfl : w' = w := hkeep
    exact ⟨herr _ _ _ hv, trivial⟩

/-- Nothing is there to be spoiled yet. -/
theorem tidy_perform {op : ChallengeFileOp} (hstill : Still op) (hop : op.staged = false) :
    Triple (recording webroot) (Tidy paths) (challengeFile op) (fun _ => Tidy paths) (fun _ => Tidy paths) fun _ => True :=
  still_perform hstill (fun _ _ _ hv => ⟨hv.1, not_spoiled_ok hv.2 _ _⟩) fun _ _ _ hv => ⟨hv.1, not_spoiled_unstaged hv.2 hop _⟩

theorem littered_of_staging {w : WebrootFiles} {t : List (Event challengeFiles Exc)} {op : ChallengeFileOp} {x : Exc}
    (hdotted : Dotted config certificate temporary) (h : Staging temporary paths (w, t)) (hop : op.staged = true) :
    Littered config certificate (w, t ++ [⟨op, .error x⟩]) :=
  ⟨⟨temporary, hdotted, h.1⟩, spoiled_snoc.2 (Or.inr ⟨hop, x, rfl⟩)⟩

/-- While the temporary file is there, a failure spoils the write. -/
theorem staged_perform (hdotted : Dotted config certificate temporary) {op : ChallengeFileOp} (hstill : Still op)
    (hop : op.staged = true) :
    Triple (recording webroot) (Staging temporary paths) (challengeFile op) (fun _ => Staging temporary paths)
      (fun _ => Littered config certificate) fun _ => True :=
  still_perform hstill (fun _ _ _ hv => ⟨hv.1, hv.2.1, not_spoiled_ok hv.2.2 _ _⟩)
    fun _ _ _ hv => littered_of_staging hdotted hv hop

theorem littered_perform {op : ChallengeFileOp} (hstill : Still op) :
    Triple (recording webroot) (Littered config certificate) (challengeFile op) (fun _ => Littered config certificate)
      (fun _ => Littered config certificate) fun _ => True :=
  still_perform hstill (fun _ _ _ hv => ⟨hv.1, spoiled_snoc.2 (Or.inl hv.2)⟩) fun _ _ _ hv => ⟨hv.1, spoiled_snoc.2 (Or.inl hv.2)⟩

theorem create_spec :
    Triple (recording webroot) (Tidy paths) (challengeFile (.create temporary)) (fun _ => Staging temporary paths)
      (fun _ => Tidy paths) fun _ => True := by
  refine Triple.perform (fun _ _ => trivial) ?_ ?_
  · rintro ⟨w, t⟩ reply ⟨w', t'⟩ ⟨hpaths, hclean⟩ ⟨hstep, rfl⟩
    obtain ⟨-, rfl⟩ : w temporary = none ∧ w' = Function.update w temporary (some .call) := hstep
    refine ⟨⟨Function.update_self .., fun path hne hpath => ?_, not_spoiled_ok hclean _ _⟩, trivial⟩
    simp only [Function.update_of_ne hne] at hpath
    exact hpaths path hpath
  · rintro ⟨w, t⟩ x ⟨w', t'⟩ ⟨hpaths, hclean⟩ ⟨⟨hkeep, -⟩, rfl⟩
    obtain rfl : w' = w := hkeep
    exact ⟨⟨hpaths, not_spoiled_unstaged hclean rfl _⟩, trivial⟩

theorem replace_spec (hdotted : Dotted config certificate temporary) :
    Triple (recording webroot) (Staging temporary paths) (challengeFile (.replace temporary path)) (fun _ => Tidy (path :: paths))
      (fun _ => Littered config certificate) fun _ => True := by
  refine Triple.perform (fun _ _ => trivial) ?_ ?_
  · rintro ⟨w, t⟩ reply ⟨w', t'⟩ ⟨-, hpaths, hclean⟩ ⟨hstep, rfl⟩
    obtain ⟨-, rfl⟩ : w temporary ≠ none ∧ w' = Function.update (Function.update w temporary none) path (w temporary) := hstep
    refine ⟨⟨fun other hother => ?_, not_spoiled_ok hclean _ _⟩, trivial⟩
    by_cases hpath : other = path
    · exact hpath ▸ List.mem_cons_self
    · simp only [Function.update_of_ne hpath] at hother
      by_cases htemporary : other = temporary
      · rw [htemporary, Function.update_self] at hother
        cases hother
      · rw [Function.update_of_ne htemporary] at hother
        exact List.mem_cons_of_mem _ (hpaths other htemporary hother)
  · rintro ⟨w, t⟩ x ⟨w', t'⟩ hv ⟨⟨hkeep, -⟩, rfl⟩
    obtain rfl : w' = w := hkeep
    exact ⟨littered_of_staging hdotted hv rfl, trivial⟩

theorem fill_spec (hdotted : Dotted config certificate temporary) (content : Bytes) :
    Triple (recording webroot) (Staging temporary paths) (fillTemporary temporary content) (fun _ => Staging temporary paths)
      (fun _ => Littered config certificate) fun _ => True := by
  have hstaged {op : ChallengeFileOp} (hop : Still op) (hs : op.staged = true) :
      Triple (recording webroot) (Staging temporary paths) (challengeFile op) (fun _ => Staging temporary paths)
        (fun _ => Littered config certificate) fun _ => True :=
    staged_perform hdotted hop hs
  have hchown : Triple (recording webroot) (Staging temporary paths) (chownToPublisher temporary)
      (fun _ => Staging temporary paths) (fun _ => Littered config certificate) fun _ => True := by
    refine Triple.bind (hstaged (fun _ _ _ h => h) rfl) fun euid => ?_
    split
    · exact Triple.bind (hstaged (fun _ _ _ h => h) rfl) fun _ => hstaged (fun _ _ _ h => h) rfl
    · exact Triple.ret (fun _ hv => hv) fun _ _ => trivial
  exact Triple.bind (hstaged (fun _ _ _ h => h) rfl) fun _ => Triple.bind hchown fun _ => hstaged (fun _ _ _ h => h) rfl

/-- A write that returns leaves the challenge; one that raises leaves nothing, or has spoiled its temporary file. -/
theorem write_spec {token : String} (htoken : isToken token = true) (content : Bytes) :
    Triple (recording webroot) (Tidy paths) (writeChallengeFile (challengePath config certificate token) content)
      (fun _ => Tidy (challengePath config certificate token :: paths))
      (fun _ v => Tidy paths v ∨ Littered config certificate v) fun _ => True := by
  have hbefore {op : ChallengeFileOp} (hop : Still op) (hstaged : op.staged = false) :
      Triple (recording webroot) (Tidy paths) (challengeFile op) (fun _ => Tidy paths)
        (fun _ v => Tidy paths v ∨ Littered config certificate v) fun _ => True :=
    (tidy_perform hop hstaged).conseq (fun _ hv => hv) (fun _ _ hv => hv) (fun _ _ hv => Or.inl hv) fun _ hv => hv
  refine Triple.bind (hbefore (fun _ _ _ h => h) rfl) fun _ => Triple.bind (hbefore (fun _ _ _ h => h) rfl) fun suffix => ?_
  have hdotted : Dotted config certificate _ := dotted_temporary htoken suffix
  refine Triple.bind (create_spec.conseq (fun _ hv => hv) (fun _ _ hv => hv) (fun _ _ hv => Or.inl hv) fun _ hv => hv) fun _ => ?_
  have hclose : ∀ temporary, Still (.close temporary) := fun _ _ _ _ h => h
  refine (Triple.bind (Triple.ensure (fill_spec hdotted content) (fun _ => staged_perform hdotted (hclose _) rfl)
    (fun _ => littered_perform (hclose _)) (fun _ _ _ => trivial) fun _ _ _ => trivial) fun _ => replace_spec hdotted).conseq
      (fun _ hv => hv) (fun _ _ hv => hv) (fun _ _ hv => Or.inr hv) fun _ hv => hv

/-! ### Removing -/

/-- A write was spoiled, or what the call has created is at the paths. -/
def Settled (config : AppConfig) (certificate : CertificateConfig) (paths : List String) (v : Log) : Prop :=
  Tidy paths v ∨ Littered config certificate v

/-- The paths of challenges. -/
def Plain (config : AppConfig) (certificate : CertificateConfig) (paths : List String) : Prop :=
  ∀ path ∈ paths, ∃ token, isToken token = true ∧ path = challengePath config certificate token

theorem remove_spec {token : String} (htoken : isToken token = true) :
    Triple (recording webroot) (Settled config certificate (challengePath config certificate token :: paths))
      (removeChallengeFile (challengePath config certificate token)) (fun _ => Settled config certificate paths)
      (fun _ _ => False) fun _ => True := by
  refine Triple.bind (R := fun _ => Settled config certificate paths) ?_ fun _ => Triple.ret (fun _ hv => hv) fun _ _ => trivial
  refine Triple.perform (fun _ _ => trivial) ?_ ?_
  · rintro ⟨w, t⟩ reply ⟨w', t'⟩ hv ⟨hstep, rfl⟩
    obtain ⟨-, rfl⟩ : reply = (w (challengePath config certificate token)).isSome ∧
      w' = Function.update w (challengePath config certificate token) none := hstep
    refine ⟨?_, trivial⟩
    rcases hv with ⟨hpaths, hclean⟩ | ⟨⟨path, hdotted, hpath⟩, hspoiled⟩
    · refine Or.inl ⟨fun path hpath => ?_, not_spoiled_ok hclean _ _⟩
      by_cases hremoved : path = challengePath config certificate token
      · rw [hremoved] at hpath
        simp only [Function.update_self] at hpath
        cases hpath
      · simp only [Function.update_of_ne hremoved] at hpath
        exact (List.mem_cons.1 (hpaths path hpath)).resolve_left hremoved
    · refine Or.inr ⟨⟨path, hdotted, ?_⟩, spoiled_snoc.2 (Or.inl hspoiled)⟩
      simp only [Function.update_of_ne (hdotted token htoken)]
      exact hpath
  · rintro ⟨w, t⟩ x ⟨w', t'⟩ - ⟨⟨-, hunlinks⟩, -⟩
    cases hunlinks

/-! ### The issuance -/

/-- The operation writes or removes a challenge. -/
def onChallenge : Op → Bool
  | .writeChallenge .. | .removeChallenge _ => true
  | _ => false

/-- The publisher over the directory of the challenges. -/
abbrev publishing : Env publisher Exc Log := implementing (recording webroot) onChallengeFiles

theorem aside_frame {α : Type} {p : Action α} (hp : p.Uses (onChallenge · = false)) {I : Log → Prop}
    (hI : ∀ op, Triple (recording webroot) I (challengeFile (.publisher op)) (fun _ => I) (fun _ => I) fun _ => True) :
    Triple publishing I p (fun _ => I) (fun _ => I) fun _ => True := by
  refine (Triple.frame hp ?_).conseq (fun _ hv => hv) (fun _ _ hv => hv) (fun _ _ hv => hv) fun _ _ => trivial
  intro v op answer v' hop hv hrun
  have himplemented : onChallengeFiles op = challengeFile (.publisher op) := by
    cases op <;> first | rfl | cases hop
  unfold publishing implementing at hrun
  rw [himplemented] at hrun
  have hpost := hI op v hv _ v' hrun
  cases answer <;> exact hpost

theorem tidy_frame {α : Type} {p : Action α} (hp : p.Uses (onChallenge · = false)) :
    Triple publishing (Tidy paths) p (fun _ => Tidy paths) (fun _ => Tidy paths) fun _ => True :=
  aside_frame hp fun _ => tidy_perform (fun _ _ _ h => h) rfl

theorem write_implemented {token : String} (htoken : isToken token = true) (validation : String) :
    Triple publishing (Tidy paths) (perform (.writeChallenge (challengePath config certificate token) validation))
      (fun _ => Tidy (challengePath config certificate token :: paths)) (fun _ => Settled config certificate paths)
      fun _ => True := by
  refine Triple.implemented (C := fun _ => True) ?_
  unfold onChallengeFiles
  simp only
  split
  · exact write_spec htoken _
  · exact Triple.raise (fun _ hv => Or.inl hv) fun _ _ => trivial

theorem tidy_mono {paths' : List String} (h : paths ⊆ paths') (hv : Tidy paths v) : Tidy paths' v :=
  ⟨fun path hpath => h (hv.1 path hpath), hv.2⟩

theorem challenge_ok {authorization : Authorization} {token validation : String}
    (h : NativeAcmeService.challenge authorization = .ok (token, validation)) : isToken token = true := by
  unfold NativeAcmeService.challenge at h
  split at h
  · cases h
  · split at h
    · rename_i htoken
      cases h
      exact htoken
    · cases h

/-- The loop knows of every challenge that it has written, unless a write was spoiled. -/
theorem answerChallenges_spec (order : Order) (l : List Authorization) {paths : List String} (hplain : Plain config certificate paths) :
    Triple publishing (Tidy paths) (answerChallenges config certificate order l paths)
      (fun ended v => Settled config certificate ended.2 v ∧ Plain config certificate ended.2) (fun _ _ => False)
      fun _ => True := by
  induction l generalizing paths with
  | nil => exact Triple.ret (fun v hv => ⟨Or.inl hv, hplain⟩) fun _ _ => trivial
  | cons authorization rest ih =>
    unfold answerChallenges
    split
    · exact Triple.ret (fun v hv => ⟨Or.inl hv, hplain⟩) fun _ _ => trivial
    · rename_i token validation hchallenge
      have htoken := challenge_ok hchallenge
      have hgrown : Plain config certificate (paths ++ [challengePath config certificate token]) := by
        intro path hpath
        rcases List.mem_append.1 hpath with hpath | hpath
        · exact hplain path hpath
        · exact ⟨token, htoken, List.mem_singleton.1 hpath⟩
      have hmore : challengePath config certificate token :: paths ⊆ paths ++ [challengePath config certificate token] := by
        simp
      refine Triple.bind (Triple.attempt (write_implemented htoken validation) (fun _ _ _ => trivial) fun _ _ _ => trivial)
        fun written => ?_
      cases written with
      | error x => exact Triple.ret (fun v hv => ⟨hv, hplain⟩) fun _ _ => trivial
      | ok _ =>
        have hanswer : (perform (.answerChallenge order.uri token)).Uses (onChallenge · = false) := Program.uses_perform.2 rfl
        refine Triple.bind (Triple.attempt (tidy_frame hanswer) (fun _ _ _ => trivial) fun _ _ _ => trivial) fun answered => ?_
        cases answered with
        | error x => exact Triple.ret (fun v hv => ⟨Or.inl (tidy_mono hmore hv), hgrown⟩) fun _ _ => trivial
        | ok _ => exact (ih hgrown).pre fun v hv => tidy_mono hmore hv

/-! The parts of an issuance beside the challenges. -/

theorem aside_certificateKey (current : Option LineageMaterial) :
    (certificateKey config certificate current).Uses (onChallenge · = false) := by
  unfold certificateKey
  split
  · split <;> trivial
  · exact Program.uses_perform.2 rfl

theorem aside_placeOrder (privateKey : PrivateKey) :
    (placeOrder Γ config certificate privateKey).Uses (onChallenge · = false) := by
  refine Program.uses_bind (Program.uses_perform.2 rfl) fun _ => Program.uses_bind (Program.uses_perform.2 rfl) fun order => ?_
  simp only
  split <;> trivial

theorem aside_buildChain (material : LineageMaterial) : (buildChain Γ config certificate material).Uses (onChallenge · = false) := by
  refine Program.uses_bind ?_ fun _ => uses_ofExcept
  refine Program.uses_bind (Program.uses_attempt (Program.uses_perform.2 rfl)) fun content => ?_
  cases content with
  | ok raw => trivial
  | error x =>
    simp only
    split <;> trivial

theorem aside_selectChain (privateKey : PrivateKey) (privateKeyPem : Bytes) (l : List String) :
    (selectChain Γ config certificate privateKey privateKeyPem l).Uses (onChallenge · = false) := by
  induction l with
  | nil => trivial
  | cons candidate rest ih =>
    have hcandidate : (selectCandidate Γ config certificate privateKey privateKeyPem candidate).Uses (onChallenge · = false) := by
      unfold selectCandidate
      split
      · trivial
      · refine Program.uses_bind (Program.uses_perform.2 rfl) fun _ => Program.uses_bind uses_ofExcept fun _ => ?_
        exact Program.uses_bind (aside_buildChain _) fun _ => trivial
      · trivial
    unfold selectChain
    split
    · exact ih
    · refine Program.uses_bind (Program.uses_attempt hcandidate) fun outcome => ?_
      cases outcome with
      | ok _ => trivial
      | error x =>
        simp only
        split
        · exact ih
        · trivial

theorem aside_finalize (privateKey : PrivateKey) (order : Order) :
    (finalize Γ config certificate privateKey order).Uses (onChallenge · = false) := by
  refine Program.uses_bind (Program.uses_perform.2 rfl) fun _ => Program.uses_bind (Program.uses_perform.2 rfl) fun _ => ?_
  refine Program.uses_bind (Program.uses_perform.2 rfl) fun _ => Program.uses_bind (aside_selectChain _ _ _) fun _ => ?_
  refine Program.uses_bind (Program.uses_perform.2 rfl) fun _ => Program.uses_bind (Program.uses_perform.2 rfl) fun _ => ?_
  exact Program.uses_perform.2 rfl

theorem settled_frame {α : Type} {p : Action α} (hp : p.Uses (onChallenge · = false)) :
    Triple publishing (Settled config certificate paths) p (fun _ => Settled config certificate paths)
      (fun _ => Settled config certificate paths) fun _ => True := by
  have hlittered : Triple publishing (Littered config certificate) p (fun _ => Littered config certificate)
      (fun _ => Littered config certificate) fun _ => True := aside_frame hp fun _ => littered_perform (fun _ _ _ h => h)
  exact Triple.or ((tidy_frame hp).conseq (fun _ hv => hv) (fun _ _ hv => Or.inl hv) (fun _ _ hv => Or.inl hv) fun _ hv => hv)
    (hlittered.conseq (fun _ hv => hv) (fun _ _ hv => Or.inr hv) (fun _ _ hv => Or.inr hv) fun _ hv => hv)

theorem runOrder_spec (privateKey : PrivateKey) :
    Triple publishing (Tidy []) (runOrder Γ config certificate privateKey)
      (fun ended v => Settled config certificate ended.2 v ∧ Plain config certificate ended.2) (fun _ _ => False)
      fun _ => True := by
  have hnone : Plain config certificate [] := fun path hpath => by cases hpath
  refine Triple.bind (Triple.attempt (tidy_frame (aside_placeOrder privateKey)) (fun _ _ _ => trivial) fun _ _ _ => trivial)
    fun placed => ?_
  cases placed with
  | error x => exact Triple.ret (fun v hv => ⟨Or.inl hv, hnone⟩) fun _ _ => trivial
  | ok order =>
    refine Triple.bind (answerChallenges_spec order order.authorizations hnone) fun answered => ?_
    obtain ⟨outcome, paths⟩ := answered
    cases outcome with
    | error x => exact Triple.ret (fun v hv => hv) fun _ _ => trivial
    | ok _ =>
      refine Triple.assume fun hplain => ?_
      refine Triple.bind (Triple.attempt (settled_frame (aside_finalize privateKey order)) (fun _ _ _ => trivial)
        fun _ _ _ => trivial) fun committed => Triple.ret (fun v hv => ⟨?_, hplain⟩) fun _ _ => trivial
      cases committed <;> exact hv

/-- Every challenge that was written is removed. -/
theorem removeChallenges_spec (hplain : Plain config certificate paths) :
    Triple publishing (Settled config certificate paths) (removeChallenges paths) (fun _ => Settled config certificate [])
      (fun _ _ => False) fun _ => True := by
  induction paths with
  | nil => exact Triple.ret (fun _ hv => hv) fun _ _ => trivial
  | cons path rest ih =>
    obtain ⟨token, htoken, rfl⟩ := hplain path List.mem_cons_self
    have hremove : Triple publishing (Settled config certificate (challengePath config certificate token :: rest))
        (perform (.removeChallenge (challengePath config certificate token))) (fun _ => Settled config certificate rest)
        (fun _ _ => False) fun _ => True := Triple.implemented (remove_spec htoken)
    exact Triple.bind hremove fun _ => ih fun path hpath => hplain path (List.mem_cons_of_mem _ hpath)

/-- However an issuance ends, it leaves no file, or has spoiled a write. -/
theorem issue_spec :
    Triple publishing (Tidy []) (issue Γ config certificate force) (fun _ => Settled config certificate [])
      (fun _ => Settled config certificate []) fun _ => True := by
  have hfirst {α : Type} {p : Action α} (hp : p.Uses (onChallenge · = false)) :
      Triple publishing (Tidy []) p (fun _ => Tidy []) (fun _ => Settled config certificate []) fun _ => True :=
    (tidy_frame hp).conseq (fun _ hv => hv) (fun _ _ hv => hv) (fun _ _ hv => Or.inl hv) fun _ hv => hv
  refine Triple.bind (hfirst (uses_loadOptional rfl rfl)) fun current => Triple.bind (hfirst (uses_reusable (show onChallenge .now = false from rfl) force current)) fun reused => ?_
  cases reused with
  | some material => exact Triple.ret (fun v hv => Or.inl hv) fun _ _ => trivial
  | none =>
    refine Triple.bind (hfirst (aside_certificateKey current)) fun privateKey => ?_
    refine Triple.bind ((runOrder_spec privateKey).conseq (fun _ hv => hv) (fun _ _ hv => hv) (fun _ _ hv => hv.elim)
      fun _ hv => hv) fun ended => Triple.assume fun hplain => ?_
    refine Triple.bind ((removeChallenges_spec hplain).conseq (fun _ hv => hv) (fun _ _ hv => hv) (fun _ _ hv => hv.elim)
      fun _ hv => hv) fun _ => ?_
    exact Triple.ofExcept (fun _ _ _ hv => hv) (fun _ _ hv => hv) fun _ _ => trivial

/-! ### The preflight -/

theorem tokenUrlsafe_spec (size : Nat) :
    Triple (recording webroot) (Tidy []) (challengeFile (.tokenUrlsafe size)) (fun token v => Tidy [] v ∧ isToken token = true)
      (fun _ => Tidy []) fun _ => True := by
  refine Triple.perform (fun _ _ => trivial) ?_ ?_
  · rintro ⟨w, t⟩ token ⟨w', t'⟩ ⟨hpaths, hclean⟩ ⟨⟨hkeep, htoken⟩, rfl⟩
    obtain rfl : w' = w := hkeep
    exact ⟨⟨⟨hpaths, not_spoiled_ok hclean _ _⟩, htoken⟩, trivial⟩
  · rintro ⟨w, t⟩ x ⟨w', t'⟩ ⟨hpaths, hclean⟩ ⟨⟨hkeep, -⟩, rfl⟩
    obtain rfl : w' = w := hkeep
    exact ⟨⟨hpaths, not_spoiled_unstaged hclean rfl _⟩, trivial⟩

theorem preflight_spec (policy : SelfCheckConfig) (checked : Except Exc Unit) :
    Triple (recording webroot) (Tidy []) (Http01Preflight.runOnFiles policy config certificate checked)
      (fun _ => Settled config certificate []) (fun _ => Settled config certificate []) fun _ => True := by
  unfold Http01Preflight.runOnFiles
  split
  · exact Triple.ret (fun v hv => Or.inl hv) fun _ _ => trivial
  refine Triple.bind ((tokenUrlsafe_spec 32).conseq (fun _ hv => hv) (fun _ _ hv => hv) (fun _ _ hv => Or.inl hv) fun _ hv => hv)
    fun token => Triple.assume fun htoken => ?_
  refine Triple.bind ((tokenUrlsafe_spec 48).conseq (fun _ hv => hv) (fun _ _ hv => hv.1) (fun _ _ hv => Or.inl hv) fun _ hv => hv)
    fun content => ?_
  refine Triple.bind (write_spec htoken _) fun _ => ?_
  have hremove : Triple (recording webroot) (Tidy [challengePath config certificate token])
      (removeChallengeFile (challengePath config certificate token)) (fun _ => Settled config certificate [])
      (fun _ => Settled config certificate []) fun _ => True :=
    (remove_spec htoken).conseq (fun _ hv => Or.inl hv) (fun _ _ hv => hv) (fun _ _ hv => hv.elim) fun _ hv => hv
  exact Triple.ensure (Triple.ofExcept (fun _ _ _ hv => hv) (fun _ _ hv => hv) fun _ _ => trivial) (fun _ => hremove)
    (fun _ => hremove) (fun _ _ _ => trivial) fun _ _ _ => trivial

end ChallengeCleanupAux

open ChallengeCleanupAux

/-- However a call ends that writes challenges, in a directory where a file that is there can be removed: no file that it has created
is left, temporary files included, if and only if no operation has failed while the temporary file of a challenge was there. -/
theorem challenge_files_removed_iff (call : ChallengeCall) {w w' : WebrootFiles} (hbefore : ∀ path, w path ≠ some .call)
    {o : Outcome Exc Unit} {trace : List (Event challengeFiles Exc)} (h : Exec (recording webroot) call.run (w, []) o (w', trace))
    (hfinished : o ≠ .crashed) :
    (∀ path, w' path ≠ some .call) ↔ ∀ e ∈ trace, e.op.staged = true → ∃ reply, e.answer = .ok reply := by
  have hstart : Tidy [] (w, []) := ⟨fun path hpath => absurd hpath (hbefore path), fun ⟨_, hmem, _⟩ => by cases hmem⟩
  have hends : ∃ config certificate, Settled config certificate [] (w', trace) := by
    cases call with
    | issue Γ config certificate force =>
      refine ⟨config, certificate, ?_⟩
      have hissued : ∃ ended : Outcome Exc LineageMaterial, ended ≠ .crashed ∧
          Exec (recording webroot) ((issue Γ config certificate force).subst onChallengeFiles) (w, []) ended (w', trace) := by
        rcases exec_bind_iff.1 h with ⟨material, v, hx, hret⟩ | ⟨x, -, hx⟩ | ⟨hcrashed, -⟩
        · obtain ⟨rfl, -⟩ := exec_ret_iff.1 hret
          exact ⟨.returned material, nofun, hx⟩
        · exact ⟨.raised x, nofun, hx⟩
        · exact absurd hcrashed hfinished
      obtain ⟨ended, hended, hx⟩ := hissued
      have hpost := issue_spec (w, []) hstart ended (w', trace) (hx.abstract hended)
      cases ended with
      | returned material => exact hpost
      | raised x => exact hpost
      | crashed => exact absurd rfl hended
    | preflight policy config certificate checked =>
      refine ⟨config, certificate, ?_⟩
      have hpost := preflight_spec policy checked (w, []) hstart o (w', trace) h
      cases o with
      | returned _ => exact hpost
      | raised x => exact hpost
      | crashed => exact absurd rfl hfinished
  obtain ⟨config, certificate, ⟨hnone, hclean⟩ | ⟨⟨path, -, hpath⟩, e, hmem, hstaged, x, hx⟩⟩ := hends
  · refine iff_of_true (fun path hpath => ?_) fun e hmem hstaged => ?_
    · exact absurd (hnone path hpath) List.not_mem_nil
    · cases hanswer : e.answer with
      | ok reply => exact ⟨reply, rfl⟩
      | error x => exact absurd ⟨e, hmem, hstaged, x, hanswer⟩ hclean
  · refine iff_of_false (fun hleft => hleft path hpath) fun hanswered => ?_
    obtain ⟨reply, hreply⟩ := hanswered e hmem hstaged
    rw [hx] at hreply
    cases hreply

namespace ChallengeCleanupSample

/-- The CA orders one challenge; the other operations of the publisher are not there. -/
def served : (op : Op) → Except Exc op.Reply
  | .lineageExists _ => .ok false
  | .generateKey _ => .ok Sample.privateKey
  | .acmeClient | .answerChallenge .. => .ok ()
  | .newOrder .. => .ok ⟨"order", [⟨"a.example", [.http01 "token" "validation"]⟩]⟩
  | .tokenHex _ => .ok "00"
  | .now => .ok (0 : Int)
  | _ => .error (.of .osError "unreachable")

/-- The directory, where a write fails on a full disk. -/
def directory (full : Bool) : Handler challengeFiles Exc WebrootFiles := fun w op =>
  match op with
  | .publisher op => some (served op, w)
  | .tokenUrlsafe _ => some (.ok "token", w)
  | .create path => if w path = none then some (.ok (), Function.update w path (some .call)) else none
  | .write _ content => some (if full then .error (.of .osError "No space left on device") else .ok content.length, w)
  | .geteuid => some (.ok (7 : Nat), w)
  | .replace source target =>
    if w source = none then none else some (.ok (), Function.update (Function.update w source none) target (w source))
  | .unlink path => some (.ok (w path).isSome, Function.update w path none)
  | .makeParent _ | .fsync _ | .close _ => some (.ok (), w)
  | .publisherUid | .fchown .. => none

theorem directory_allowed (full : Bool) : (directory full).Allowed webroot := by
  intro w op answer w' h
  cases op with
  | publisher op =>
    cases h
    unfold webroot
    split
    · rfl
    · exact ⟨rfl, rfl⟩
  | create path =>
    simp only [directory] at h
    split at h <;> cases h
    rename_i hnone
    exact ⟨hnone, rfl⟩
  | write path content =>
    cases full
    · cases h
      rfl
    · cases h
      exact ⟨rfl, rfl⟩
  | replace source target =>
    simp only [directory] at h
    split at h <;> cases h
    rename_i hsome
    exact ⟨hsome, rfl⟩
  | unlink path =>
    cases h
    exact ⟨rfl, rfl⟩
  | tokenUrlsafe =>
    cases h
    exact ⟨rfl, by decide⟩
  | makeParent | fsync | close | geteuid =>
    cases h
    rfl
  | publisherUid | fchown => cases h

/-- An issuance that starts with no generation. -/
def issuance : ChallengeCall := .issue Sample.ctx (Sample.config Sample.certificate) Sample.certificate false

def run (call : ChallengeCall) (full : Bool) : Outcome Exc Unit × WebrootFiles × List (Event challengeFiles Exc) :=
  call.run.runFor (directory full).record 50 (fun _ => none, [])

end ChallengeCleanupSample

open ChallengeCleanupSample

/-- A challenge that does not fit on the disk leaves its temporary file behind. -/
theorem challenge_files_removed_false :
    ∃ w' trace, Exec (recording webroot) issuance.run (fun _ => none, [])
      (.raised (acmeOperationError "native ACME operation failed")) (w', trace) ∧
        w' "/webroot/web/.well-known/acme-challenge/.token.00" = some .call := by
  have hraised : (run issuance true).1 = .raised (acmeOperationError "native ACME operation failed") := by decide +kernel
  have hleft : (run issuance true).2.1 "/webroot/web/.well-known/acme-challenge/.token.00" = some .call := by decide +kernel
  exact ⟨_, _, exec_of_runFor (directory_allowed true).record hraised, hleft⟩

/-- The same issuance with room on the disk leaves nothing when it fails later. -/
theorem challenge_files_removed_iff_sample :
    ∃ w' trace, Exec (recording webroot) issuance.run (fun _ => none, [])
      (.raised (acmeOperationError "native ACME operation failed")) (w', trace) ∧ ∀ path, w' path ≠ some .call := by
  have hraised : (run issuance false).1 = .raised (acmeOperationError "native ACME operation failed") := by decide +kernel
  have hanswered : ((run issuance false).2.2.all fun e => !e.op.staged || e.answer.isOk) = true := by decide +kernel
  have hbefore : ∀ path, (fun _ => none : WebrootFiles) path ≠ some .call := fun path h => by cases h
  have hrun : Exec (recording webroot) issuance.run (fun _ => none, []) (.raised (acmeOperationError "native ACME operation failed"))
      (run issuance false).2 := exec_of_runFor (directory_allowed false).record hraised
  refine ⟨_, _, hrun, (challenge_files_removed_iff issuance hbefore hrun fun h => by cases h).2 ?_⟩
  intro e hmem hstaged
  have hok := List.all_eq_true.1 hanswered e hmem
  rw [hstaged] at hok
  cases hanswer : e.answer with
  | ok reply => exact ⟨reply, rfl⟩
  | error x =>
    rw [hanswer] at hok
    cases hok

end OciAcmePublisher
