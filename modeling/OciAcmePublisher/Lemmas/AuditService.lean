import Mathlib.Data.List.Dedup
import OciAcmePublisher.AuditService
import OciAcmePublisher.Effects.Monitor

/-!
# What a successful audit has seen

An audit that succeeds has, in one round, resolved every endpoint and probed its addresses: the ones its policy requires presented
the expected fingerprint. An audit that is switched off succeeds as well, and has seen nothing.
-/

namespace OciAcmePublisher

open Effects

/-- What a run has performed so far. -/
abbrev Trace := List (Event publisher Exc)

/-- The address was probed for the endpoint and presented the fingerprint. -/
def Presented (configuration : AuditConfig) (endpoint : AuditEndpoint) (f address : String) (t : Trace) : Prop :=
  (⟨.probe address endpoint.hostname endpoint.port configuration.retryIntervalSeconds, .ok f⟩ : Event publisher Exc) ∈ t

/-- The endpoint was resolved, and its addresses presented the fingerprint as the policy requires. -/
def Seen (configuration : AuditConfig) (endpoint : AuditEndpoint) (f : String) (t : Trace) : Prop :=
  ∃ addresses : List String, (⟨.resolve endpoint.hostname, .ok addresses⟩ : Event publisher Exc) ∈ t ∧ addresses ≠ [] ∧
    ((∀ address ∈ addresses, Presented configuration endpoint f address t) ∨
      (configuration.requireAllAddresses = false ∧ ∃ address ∈ addresses, Presented configuration endpoint f address t))

namespace AuditService

variable {Γ : Ctx} {configuration : AuditConfig} {endpoint : AuditEndpoint} {f : String}

theorem lasting_presented (address : String) : Lasting (Presented configuration endpoint f address) := Lasting.mem _

theorem lasting_seen : Lasting (Seen configuration endpoint f) := by
  rintro t e ⟨addresses, hresolve, hne, h⟩
  refine ⟨addresses, List.mem_append_left _ hresolve, hne, ?_⟩
  rcases h with hall | ⟨hany, address, hmem, hp⟩
  · exact Or.inl fun address hmem => lasting_presented address t e (hall address hmem)
  · exact Or.inr ⟨hany, address, hmem, lasting_presented address t e hp⟩

theorem mem_sortedSet {values : List String} {v : String} : v ∈ sortedSet values ↔ v ∈ values := by
  unfold sortedSet
  rw [(List.perm_insertionSort _ _).mem_iff, List.mem_dedup]

/-- Every fingerprint that is gathered was presented by its address. -/
def Gathered (configuration : AuditConfig) (endpoint : AuditEndpoint) (addresses : List String)
    (results : List (Option String)) (t : Trace) : Prop :=
  List.Forall₂ (fun address result => ∀ f, result = some f → Presented configuration endpoint f address t) addresses results

theorem gather_spec (addresses : List String) :
    Triple anyAnswer (fun _ => True) (gather endpoint configuration.retryIntervalSeconds addresses)
      (Gathered configuration endpoint addresses) (fun _ _ => True) fun _ => True := by
  induction addresses with
  | nil => exact Triple.ret (fun _ _ => .nil) fun _ _ => trivial
  | cons address rest ih =>
    have hprobe : Triple anyAnswer (fun _ => True)
        (perform (.probe address endpoint.hostname endpoint.port configuration.retryIntervalSeconds))
        (fun g => Presented configuration endpoint g address) (fun _ _ => True) fun _ => True := perform_mem _
    refine Triple.bind (Triple.attempt hprobe (fun _ _ _ => trivial) fun _ _ _ => trivial) fun outcome => ?_
    cases outcome with
    | ok g =>
      have hrest := (@lasting_presented configuration endpoint g address).beside ih
      refine Triple.bind (hrest.conseq (fun _ h => ⟨trivial, h⟩) (fun _ _ h => h) (fun _ _ _ => trivial) fun _ _ => trivial)
        fun results => ?_
      refine Triple.ret (fun t h => ?_) fun _ _ => trivial
      refine List.Forall₂.cons (fun f hf => ?_) h.1
      cases hf
      exact h.2
    | error x =>
      simp only
      split
      · refine Triple.bind (ih.pre fun _ _ => trivial) fun results => Triple.ret (fun t h => ?_) fun _ _ => trivial
        exact List.Forall₂.cons (fun f hf => by cases hf) h
      · exact Triple.raise (fun _ _ => trivial) fun _ _ => trivial

/-- The verdict on the probes. -/
theorem matched_seen {addresses : List String} {results : List (Option String)} {t : Trace}
    (h : Gathered configuration endpoint addresses results t) (hm : matched configuration f results = true) :
    (∀ address ∈ addresses, Presented configuration endpoint f address t) ∨
      (configuration.requireAllAddresses = false ∧ ∃ address ∈ addresses, Presented configuration endpoint f address t) := by
  unfold matched at hm
  simp only at hm
  split at hm
  · rw [Bool.and_eq_true, beq_iff_eq, List.length_map, List.all_map, List.all_eq_true] at hm
    obtain ⟨hlength, hall⟩ := hm
    left
    induction h with
    | nil => exact fun _ hmem => by cases hmem
    | @cons address result addresses results hhead htail ih =>
      cases result with
      | none =>
        have hle := List.length_filterMap_le id results
        have hskip : (none :: results).filterMap id = results.filterMap id := rfl
        rw [hskip, List.length_cons] at hlength
        omega
      | some g =>
        have hkeep : (some g :: results).filterMap id = g :: results.filterMap id := rfl
        rw [hkeep, List.length_cons, List.length_cons, Nat.add_right_cancel_iff] at hlength
        simp only [hkeep, List.mem_cons] at hall
        intro a ha
        rcases List.mem_cons.1 ha with rfl | hrest
        · have hg : g = f := by simpa using hall g (Or.inl rfl)
          exact hhead f (by rw [hg])
        · exact ih hlength (fun x hx => hall x (Or.inr hx)) a hrest
  · rename_i hpolicy
    right
    refine ⟨by simpa using hpolicy, ?_⟩
    rw [List.any_map, List.any_eq_true] at hm
    obtain ⟨g, hg, hgf⟩ := hm
    obtain rfl : g = f := by simpa using hgf
    induction h with
    | nil => cases hg
    | @cons address result addresses results hhead htail ih =>
      cases result with
      | none =>
        obtain ⟨a, ha, hp⟩ := ih (by simpa using hg)
        exact ⟨a, List.mem_cons_of_mem _ ha, hp⟩
      | some g' =>
        by_cases heq : g' = g
        · exact ⟨address, List.mem_cons_self, hhead g (by rw [heq])⟩
        · have hrest : g ∈ results.filterMap id := by
            rw [show (some g' :: results).filterMap id = g' :: results.filterMap id from rfl, List.mem_cons] at hg
            exact hg.resolve_left fun h => heq h.symm
          obtain ⟨a, ha, hp⟩ := ih hrest
          exact ⟨a, List.mem_cons_of_mem _ ha, hp⟩

/-- An endpoint that matches was seen. -/
theorem endpointMatches_spec :
    Triple anyAnswer (fun _ => True) (endpointMatches Γ resolveEndpointAddresses configuration endpoint f)
      (fun isMatch t => isMatch = true → Seen configuration endpoint f t) (fun _ _ => True) fun _ => True := by
  refine Triple.handle (R := fun _ _ => True) ?_ fun error => ?_
  · refine Triple.bind (R := fun addresses t => ∃ results : List String,
      (⟨.resolve endpoint.hostname, .ok results⟩ : Event publisher Exc) ∈ t ∧ addresses = sortedSet results ∧ addresses ≠ [])
      ?_ fun addresses => ?_
    · refine Triple.bind (perform_mem _) fun results => ?_
      simp only
      split
      · exact Triple.raise (fun _ _ => trivial) fun _ _ => trivial
      · rename_i hne
        exact Triple.ret (fun t h => ⟨results, h, rfl, hne⟩) fun _ _ => trivial
    · refine Triple.of_exists fun results => ?_
      refine Triple.pre (P := fun t => ((⟨.resolve endpoint.hostname, .ok results⟩ : Event publisher Exc) ∈ t) ∧
        (addresses = sortedSet results ∧ addresses ≠ [])) (Triple.assume fun hfacts => ?_) fun t h => h
      refine Triple.bind ((Lasting.mem _).triple _ |>.conseq (fun _ h => h) (fun _ _ h => h) (fun _ _ _ => trivial)
        fun _ _ => trivial) fun _ => ?_
      refine Triple.bind (((Lasting.mem _).beside (gather_spec addresses)).conseq (fun _ h => ⟨trivial, h⟩)
        (fun _ _ h => h) (fun _ _ _ => trivial) fun _ _ => trivial) fun gathered => ?_
      refine Triple.ret (fun t h hm => ?_) fun _ _ => trivial
      obtain ⟨rfl, hne⟩ := hfacts
      have hmem : ∀ a, a ∈ sortedSet results ↔ a ∈ results := fun a => mem_sortedSet
      have hverdict := matched_seen h.1 hm
      simp only [hmem] at hverdict
      refine ⟨results, h.2, ?_, hverdict⟩
      rintro rfl
      exact hne rfl
  · split
    · refine Triple.ret (fun _ _ h => ?_) fun _ _ => trivial
      cases h
    · exact Triple.raise (fun _ _ => trivial) fun _ _ => trivial

/-- A round without failures has seen every endpoint. -/
theorem once_spec (endpoints : List AuditEndpoint) :
    Triple anyAnswer (fun _ => True) (once Γ resolveEndpointAddresses configuration f endpoints)
      (fun failures t => failures = [] → ∀ endpoint ∈ endpoints, Seen configuration endpoint f t) (fun _ _ => True)
      fun _ => True := by
  induction endpoints with
  | nil => exact Triple.ret (fun _ _ _ endpoint h => by cases h) fun _ _ => trivial
  | cons endpoint rest ih =>
    refine Triple.bind endpointMatches_spec fun isMatch => ?_
    have hlast : Lasting fun t : Trace => isMatch = true → Seen configuration endpoint f t := lasting_seen.imp
    refine Triple.bind ((hlast.beside ih).conseq (fun _ h => ⟨trivial, h⟩) (fun _ _ h => h) (fun _ _ _ => trivial)
      fun _ _ => trivial) fun failures => ?_
    refine Triple.ret (fun t h hnone => ?_) fun _ _ => trivial
    cases isMatch with
    | false => cases hnone
    | true =>
      intro e he
      rcases List.mem_cons.1 he with rfl | he
      · exact h.2 rfl
      · exact h.1 hnone e he

theorem rounds_spec (deadline : Rat) (passes attempts : Nat) :
    Triple anyAnswer (fun _ => True) (rounds Γ resolveEndpointAddresses configuration f deadline passes attempts)
      (fun result t => result.successful = true → ∀ endpoint ∈ configuration.endpoints, Seen configuration endpoint f t)
      (fun _ _ => True) fun _ => True := by
  induction passes generalizing attempts with
  | zero => exact Triple.diverge fun _ _ => trivial
  | succ passes ih =>
    refine Triple.bind (once_spec configuration.endpoints) fun failures => ?_
    split
    · rename_i hnone
      exact Triple.ret (fun t h _ => h hnone) fun _ _ => trivial
    · refine Triple.last _ fun clock => ?_
      split
      · split
        · exact Triple.raise (fun _ _ => trivial) fun _ _ => trivial
        · refine Triple.ret (fun _ _ h => ?_) fun _ _ => trivial
          cases h
      · exact Triple.last _ fun _ => ih _

/-- An audit that succeeds has seen every endpoint, unless it is switched off. -/
theorem audit_spec (passes : Nat) :
    Triple anyAnswer (fun _ => True) (audit Γ configuration passes f)
      (fun result t => result.successful = true → configuration.mode = .disabled ∨
        ∀ endpoint ∈ configuration.endpoints, Seen configuration endpoint f t) (fun _ _ => True) fun _ => True := by
  unfold audit auditWith
  split
  · rename_i hmode
    exact Triple.ret (fun _ _ _ => Or.inl hmode) fun _ _ => trivial
  · refine Triple.last _ fun start => ?_
    exact (rounds_spec _ _ _).post fun _ _ h hs => Or.inr (h hs)

theorem validateAddresses_error {addresses : List String} {rejectNonGlobal : Bool} {x : Exc}
    (h : validateAddresses Γ addresses rejectNonGlobal = .error x) : ∃ message, x = auditError message := by
  rcases forM_checks_error h with rfl | rfl
  · exact ⟨_, rfl⟩
  · exact ⟨_, rfl⟩

/-! ## What an audit raises -/

theorem raises_gather {φ : Exc → Prop} (endpoint : AuditEndpoint) (timeoutSeconds : Nat) (addresses : List String) :
    (gather endpoint timeoutSeconds addresses).Raises φ := by
  induction addresses with
  | nil => trivial
  | cons address rest ih =>
    refine Program.raises_attempt_bind (Program.raises_perform _) (fun fingerprint => ?_) fun error herror => ?_
    · exact Program.raises_bind ih fun _ => trivial
    · simp only
      split
      · exact Program.raises_bind ih fun _ => trivial
      · exact herror

theorem raises_once {φ : Exc → Prop} (hφ : ∀ message, φ (auditError message)) (endpoints : List AuditEndpoint) :
    (once Γ resolveEndpointAddresses configuration f endpoints).Raises φ := by
  induction endpoints with
  | nil => trivial
  | cons endpoint rest ih =>
    refine Program.raises_bind ?_ fun _ => Program.raises_bind ih fun _ => trivial
    refine Program.raises_handle ?_ fun error herror => ?_
    · refine Program.raises_bind ?_ fun addresses => ?_
      · refine Program.raises_bind (Program.raises_perform _) fun results => ?_
        simp only
        split
        · exact hφ _
        · trivial
      · refine Program.raises_bind ?_ fun _ => Program.raises_bind (raises_gather _ _ _) fun _ => trivial
        cases hvalid : validateAddresses Γ addresses configuration.rejectNonGlobalAddresses with
        | ok => trivial
        | error x =>
          obtain ⟨message, rfl⟩ := validateAddresses_error hvalid
          exact hφ message
    · split
      · trivial
      · exact herror

/-- An audit raises `AuditError`, or what the endpoints and the clock raise. -/
theorem raises_audit {φ : Exc → Prop} (hφ : ∀ message, φ (auditError message)) (passes : Nat) :
    (audit Γ configuration passes f).Raises φ := by
  unfold audit auditWith
  split
  · trivial
  refine Program.raises_bind (Program.raises_perform _) fun start => ?_
  generalize 0 = attempts
  induction passes generalizing attempts with
  | zero => trivial
  | succ passes ih =>
    refine Program.raises_bind (raises_once hφ _) fun failures => ?_
    split
    · trivial
    · refine Program.raises_bind (Program.raises_perform _) fun clock => ?_
      split
      · split
        · exact hφ _
        · trivial
      · exact Program.raises_bind (Program.raises_perform _) fun _ => ih _

/-! ## Audits in enforce mode -/

/-- Outside observe mode an audit that returns is successful. -/
theorem yields_audit (hmode : configuration.mode ≠ .observe) (passes : Nat) :
    (audit Γ configuration passes f).Yields fun result => result.successful = true := by
  unfold audit auditWith
  split
  · rfl
  rename_i hdisabled
  have henforce : configuration.mode = .enforce := by
    cases hm : configuration.mode with
    | enforce => rfl
    | disabled => exact absurd hm hdisabled
    | observe => exact absurd hm hmode
  refine Program.yields_last _ fun start => ?_
  generalize 0 = attempts
  induction passes generalizing attempts with
  | zero => trivial
  | succ passes ih =>
    refine Program.yields_last _ fun failures => ?_
    split
    · rfl
    · refine Program.yields_last _ fun clock => ?_
      split
      · trivial
      · exact Program.yields_last _ fun _ => ih _

end AuditService

end OciAcmePublisher
