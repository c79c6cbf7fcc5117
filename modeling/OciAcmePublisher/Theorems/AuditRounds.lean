import Mathlib.Data.Rat.Floor
import OciAcmePublisher.Effects.Chronicle
import OciAcmePublisher.Effects.Ending
import OciAcmePublisher.Lemmas.AuditService
import OciAcmePublisher.Simulation

/-!
# The rounds of an audit

What an audit performs is a sequence of rounds, each of which checks every endpoint, and its last round decides. The resolver is any
that reads what a lookup answers. A resolver error other than `AuditError` leaves the audit in the middle of a round.
-/

namespace OciAcmePublisher

open Effects

namespace AuditService

/-- A resolver that reads what the lookup of the hostname answers. -/
def lookup (read : List String → Except Exc (List String)) : Resolver := fun hostname => do
  let results ← perform (.resolve hostname)
  ofExcept (read results)

/-- What `resolve_endpoint_addresses` reads. -/
def systemAddresses (results : List String) : Except Exc (List String) :=
  if sortedSet results = [] then .error (auditError "endpoint DNS returned no addresses") else .ok (sortedSet results)

theorem resolveEndpointAddresses_eq : resolveEndpointAddresses = lookup systemAddresses := by
  funext hostname
  unfold resolveEndpointAddresses lookup systemAddresses
  congr 1
  funext results
  simp only
  split <;> rfl

end AuditService

/-- A resolver gives the addresses, or refuses the answer with `AuditError`. -/
def ReadsOrRefuses (read : List String → Except Exc (List String)) : Prop :=
  ∀ results x, read results = .error x → x.isInstance .auditError = true

theorem readsOrRefuses_system : ReadsOrRefuses AuditService.systemAddresses := by
  intro results x h
  unfold AuditService.systemAddresses at h
  split at h
  · cases h
    rfl
  · cases h

/-! ## Rounds -/

section Rounds

variable (Γ : Ctx) (read : List String → Except Exc (List String)) (configuration : AuditConfig) (f : String)

/-- The addresses are valid under the policy. -/
def AddressesValid (addresses : List String) : Prop :=
  ∀ address ∈ addresses, Γ.isIpAddress address = true ∧
    (configuration.rejectNonGlobalAddresses = true → Γ.isGlobal address = true)

/-- The probes of the addresses of an endpoint, with their answers. -/
def probes (endpoint : AuditEndpoint) (addresses : List String) (answers : List (Except Exc String)) : Trace :=
  List.zipWith (fun address answer =>
    (⟨.probe address endpoint.hostname endpoint.port configuration.retryIntervalSeconds, answer⟩ : Event publisher Exc))
    addresses answers

/-- The addresses the policy requires presented the fingerprint. -/
def Converged (answers : List (Except Exc String)) : Prop :=
  if configuration.requireAllAddresses then ∀ answer ∈ answers, answer = .ok f else .ok f ∈ answers

/-- The check of an endpoint: what it performs, and whether the endpoint matches. -/
inductive EndpointChecked (endpoint : AuditEndpoint) : Trace → Bool → Prop where
  | unresolved {x : Exc} (hx : x.isInstance .auditError = true) :
      EndpointChecked endpoint [⟨.resolve endpoint.hostname, .error x⟩] false
  | rejected {results : List String}
      (hinvalid : ∀ addresses, read results = .ok addresses → ¬AddressesValid Γ configuration addresses) :
      EndpointChecked endpoint [⟨.resolve endpoint.hostname, .ok results⟩] false
  | probed {results addresses : List String} {answers : List (Except Exc String)} {isMatch : Bool}
      (hread : read results = .ok addresses) (hvalid : AddressesValid Γ configuration addresses)
      (hlength : answers.length = addresses.length) (hmatch : isMatch = true ↔ Converged configuration f answers) :
      EndpointChecked endpoint (⟨.resolve endpoint.hostname, .ok results⟩ :: probes configuration endpoint addresses answers)
        isMatch

/-- A round: what it performs for the endpoints, and the endpoints that do not match. -/
inductive RoundChecked : List AuditEndpoint → Trace → List String → Prop where
  | nil : RoundChecked [] [] []
  | matches {endpoint : AuditEndpoint} {rest : List AuditEndpoint} {calls later : Trace} {failures : List String} :
      EndpointChecked Γ read configuration f endpoint calls true → RoundChecked rest later failures →
      RoundChecked (endpoint :: rest) (calls ++ later) failures
  | fails {endpoint : AuditEndpoint} {rest : List AuditEndpoint} {calls later : Trace} {failures : List String} :
      EndpointChecked Γ read configuration f endpoint calls false → RoundChecked rest later failures →
      RoundChecked (endpoint :: rest) (calls ++ later) (s!"{endpoint.hostname}:{endpoint.port}" :: failures)

/-- A round with failures, and the clock after it. -/
structure FailedRound where
  calls : Trace
  failures : List String
  clock : Rat

/-- What a failed round performs, with the wait for the next one. -/
def FailedRound.trace (round : FailedRound) : Trace :=
  round.calls ++ [⟨.monotonic, .ok round.clock⟩, ⟨.wait configuration.retryIntervalSeconds, .ok ()⟩]

/-- How the last of `rounds` rounds decides an audit. -/
inductive AuditDecided (deadline : Rat) (rounds : Nat) : List String → Trace → Outcome Exc AuditResult → Prop where
  | converged : AuditDecided deadline rounds [] [] (.returned ⟨true, rounds, []⟩)
  | observed {failures : List String} {clock : Rat} (hfailures : failures ≠ []) (hclock : deadline ≤ clock)
      (hmode : configuration.mode ≠ .enforce) :
      AuditDecided deadline rounds failures [⟨.monotonic, .ok clock⟩] (.returned ⟨false, rounds, failures⟩)
  | enforced {failures : List String} {clock : Rat} (hfailures : failures ≠ []) (hclock : deadline ≤ clock)
      (hmode : configuration.mode = .enforce) :
      AuditDecided deadline rounds failures [⟨.monotonic, .ok clock⟩]
        (.raised (auditError "TLS audit did not converge before propagation timeout"))

/-- A whole audit: rounds with failures that ended before the deadline, and the round that decides. -/
structure WholeAudit (start : Rat) (earlier : List FailedRound) (calls : Trace) (failures : List String) (t : Trace)
    (o : Outcome Exc AuditResult) : Prop where
  earlier_failed : ∀ round ∈ earlier, RoundChecked Γ read configuration f configuration.endpoints round.calls round.failures ∧
    round.failures ≠ [] ∧ round.clock < start + configuration.propagationTimeoutSeconds
  last : RoundChecked Γ read configuration f configuration.endpoints calls failures
  decides : ∃ ending, AuditDecided configuration (start + configuration.propagationTimeoutSeconds) (earlier.length + 1) failures
    ending o ∧ t = ⟨.monotonic, .ok start⟩ :: (earlier.flatMap (FailedRound.trace configuration) ++ calls ++ ending)

end Rounds

/-- The clock and the pause return; a probe raises exceptions only. -/
def calm : (op : Op) → Except Exc op.Reply → Prop
  | .monotonic, r => ∃ now, r = .ok now
  | .wait _, r => r = .ok ()
  | .probe .., r => ∀ x, r = .error x → x.isInstance .exception = true
  | _, _ => True

/-- Endpoints and resolvers that behave in any way. -/
def observing : Env publisher Exc Trace := fun t op r t' => t' = t ++ [⟨op, r⟩] ∧ calm op r

namespace AuditRoundsAux

open AuditService

variable {Γ : Ctx} {read : List String → Except Exc (List String)} {configuration : AuditConfig} {f : String}
  {endpoint : AuditEndpoint} {t₀ : Trace}

/-- The last call was a lookup that raised something other than `AuditError`. -/
def Escaped (x : Exc) (t : Trace) : Prop :=
  x.isInstance .auditError = false ∧ ∃ earlier hostname, t = earlier ++ [⟨.resolve hostname, .error x⟩]

/-! ### One endpoint -/

theorem gather_runs (addresses : List String) (t₀ : Trace) :
    Triple observing (· = t₀) (gather endpoint configuration.retryIntervalSeconds addresses)
      (fun results t => ∃ answers : List (Except Exc String), answers.length = addresses.length ∧
        results = answers.map Except.toOption ∧ t = t₀ ++ probes configuration endpoint addresses answers)
      (fun _ _ => False) (fun _ => True) := by
  induction addresses generalizing t₀ with
  | nil =>
    refine Triple.ret (fun t ht => ⟨[], rfl, rfl, ?_⟩) fun _ _ => trivial
    rw [ht]
    exact (List.append_nil t₀).symm
  | cons address rest ih =>
    have hprobe : Triple observing (· = t₀)
        (perform (.probe address endpoint.hostname endpoint.port configuration.retryIntervalSeconds)).attempt
        (fun r t => (∀ x, r = .error x → x.isInstance .exception = true) ∧ t = t₀ ++
          [⟨.probe address endpoint.hostname endpoint.port configuration.retryIntervalSeconds, r⟩])
        (fun _ _ => False) (fun _ => True) := by
      refine Triple.attempt_perform (fun _ _ => trivial) ?_
      rintro _ r t rfl ⟨ht, hcalm⟩
      exact ⟨⟨hcalm, ht⟩, trivial⟩
    refine Triple.bind hprobe fun outcome => ?_
    have hrest : Triple observing (fun t => (∀ x, outcome = .error x → x.isInstance .exception = true) ∧ t = t₀ ++
          [⟨.probe address endpoint.hostname endpoint.port configuration.retryIntervalSeconds, outcome⟩])
        (gather endpoint configuration.retryIntervalSeconds rest)
        (fun results t => ∃ answers : List (Except Exc String), answers.length = (address :: rest).length ∧
          outcome.toOption :: results = answers.map Except.toOption ∧
          t = t₀ ++ probes configuration endpoint (address :: rest) answers) (fun _ _ => False) (fun _ => True) := by
      refine ((ih _).pre fun _ h => h.2).post ?_
      rintro results t ⟨answers, hlength, rfl, ht⟩
      refine ⟨outcome :: answers, by rw [List.length_cons, hlength]; rfl, rfl, ?_⟩
      rw [ht, List.append_assoc]
      rfl
    cases outcome with
    | ok fingerprint => exact Triple.bind hrest fun results => Triple.ret (fun _ h => h) fun _ _ => trivial
    | error error =>
      intro t ht
      have hexception := ht.1 error rfl
      simp only
      rw [if_pos hexception]
      exact Triple.bind hrest (fun results => Triple.ret (fun _ h => h) fun _ _ => trivial) t ht

/-- The verdict on the answers of the probes. -/
theorem matched_iff (answers : List (Except Exc String)) :
    matched configuration f (answers.map Except.toOption) = true ↔ Converged configuration f answers := by
  have hsome : ∀ answer : Except Exc String, answer.toOption = some f ↔ answer = .ok f := by
    rintro (_ | g) <;> simp [Except.toOption]
  unfold matched Converged
  simp only
  split
  · rw [Bool.and_eq_true, beq_iff_eq, List.length_map, List.length_map, List.all_map]
    induction answers with
    | nil => simp
    | cons answer rest ih =>
      rw [List.forall_mem_cons]
      refine Iff.trans ?_ (and_congr_right fun _ => ih)
      cases answer with
      | error x =>
        have hskip : ((Except.error x :: rest).map Except.toOption).filterMap id = (rest.map Except.toOption).filterMap id := rfl
        have hle := List.length_filterMap_le id (rest.map Except.toOption)
        rw [List.length_map] at hle
        rw [hskip, List.length_cons]
        exact ⟨fun h => absurd h.1 (by omega), fun h => nomatch h.1⟩
      | ok g =>
        have hkeep : ((Except.ok g :: rest).map Except.toOption).filterMap id =
            g :: (rest.map Except.toOption).filterMap id := rfl
        rw [hkeep, List.length_cons, List.length_cons, Nat.add_right_cancel_iff, List.all_cons, Bool.and_eq_true]
        simp only [Function.comp_apply, id_eq, beq_iff_eq, Except.ok.injEq]
        exact and_left_comm
  · rw [List.any_map, List.any_eq_true]
    constructor
    · rintro ⟨g, hg, hgf⟩
      obtain ⟨r, hr, hrg⟩ := List.mem_filterMap.1 hg
      obtain ⟨answer, hanswer, rfl⟩ := List.mem_map.1 hr
      have hgeq : g = f := by simpa using hgf
      have hanswer' : answer = .ok f := (hsome answer).1 (by rw [← hgeq]; exact hrg)
      rw [← hanswer']
      exact hanswer
    · intro h
      exact ⟨f, List.mem_filterMap.2 ⟨some f, List.mem_map.2 ⟨.ok f, h, rfl⟩, rfl⟩, by simp⟩

theorem validateAddresses_iff (addresses : List String) :
    validateAddresses Γ addresses configuration.rejectNonGlobalAddresses = .ok () ↔
      AddressesValid Γ configuration addresses :=
  forM_checks_iff addresses

theorem endpoint_runs (hread : ReadsOrRefuses read) (t₀ : Trace) :
    Triple observing (· = t₀) (endpointMatches Γ (lookup read) configuration endpoint f)
      (fun isMatch t => ∃ calls, t = t₀ ++ calls ∧ EndpointChecked Γ read configuration f endpoint calls isMatch)
      Escaped (fun _ => True) := by
  -- before the handler: a lookup that raised, or addresses that were refused
  refine Triple.handle (R := fun x t => (t = t₀ ++ [⟨.resolve endpoint.hostname, .error x⟩]) ∨
    (x.isInstance .auditError = true ∧ ∃ calls, t = t₀ ++ calls ∧
      EndpointChecked Γ read configuration f endpoint calls false)) ?_ fun x => ?_
  · refine Triple.bind (R := fun addresses t => ∃ results, read results = .ok addresses ∧
      t = t₀ ++ [⟨.resolve endpoint.hostname, .ok results⟩]) ?_ fun addresses => ?_
    · refine Triple.bind (R := fun results t => t = t₀ ++ [⟨.resolve endpoint.hostname, .ok results⟩]) ?_ fun results => ?_
      · refine Triple.perform (fun _ _ => trivial) ?_ ?_
        · rintro _ results t rfl ⟨ht, -⟩
          exact ⟨ht, trivial⟩
        · rintro _ x t rfl ⟨ht, -⟩
          exact ⟨Or.inl ht, trivial⟩
      · simp only
        cases hanswer : read results with
        | ok addresses => exact Triple.ret (fun t ht => ⟨results, hanswer, ht⟩) fun _ _ => trivial
        | error x =>
          refine Triple.raise (fun t ht => Or.inr ⟨hread results x hanswer, _, ht, .rejected fun addresses hok => ?_⟩)
            fun _ _ => trivial
          rw [hanswer] at hok
          cases hok
    · refine Triple.of_exists fun results => ?_
      refine Triple.pre (P := fun t => t = t₀ ++ [⟨.resolve endpoint.hostname, .ok results⟩] ∧ read results = .ok addresses)
        (Triple.assume fun hok => ?_) fun _ h => h.symm
      refine Triple.bind (R := fun _ t => t = t₀ ++ [⟨.resolve endpoint.hostname, .ok results⟩] ∧
        AddressesValid Γ configuration addresses) ?_ fun _ => ?_
      · cases hverdict : validateAddresses Γ addresses configuration.rejectNonGlobalAddresses with
        | ok _ => exact Triple.ret (fun t ht => ⟨ht, (validateAddresses_iff addresses).1 hverdict⟩) fun _ _ => trivial
        | error x =>
          obtain ⟨message, rfl⟩ := validateAddresses_error hverdict
          refine Triple.raise (fun t ht => Or.inr ⟨rfl, _, ht, .rejected fun addresses' hok' hvalid => ?_⟩) fun _ _ => trivial
          rw [hok] at hok'
          cases hok'
          rw [(validateAddresses_iff addresses).2 hvalid] at hverdict
          cases hverdict
      · refine Triple.assume fun hvalid => ?_
        refine Triple.bind ((gather_runs addresses _).conseq (fun _ h => h) (fun _ _ h => h) (fun _ _ h => h.elim)
          fun _ h => h) fun gathered => ?_
        refine Triple.ret (fun t h => ?_) fun _ _ => trivial
        obtain ⟨answers, hlength, rfl, ht⟩ := h
        refine ⟨⟨.resolve endpoint.hostname, .ok results⟩ :: probes configuration endpoint addresses answers, ?_, ?_⟩
        · rw [ht, List.append_assoc]
          rfl
        · exact .probed hok hvalid hlength (matched_iff answers)
  · split
    next haudit =>
      refine Triple.ret (fun t h => ?_) fun _ _ => trivial
      rcases h with ht | ⟨-, h⟩
      · exact ⟨_, ht, .unresolved haudit⟩
      · exact h
    next hother =>
      refine Triple.raise (fun t h => ?_) fun _ _ => trivial
      rcases h with ht | ⟨haudit, -⟩
      · exact ⟨Bool.eq_false_iff.2 hother, t₀, _, ht⟩
      · exact absurd haudit hother

/-! ### One round -/

theorem once_runs (hread : ReadsOrRefuses read) (endpoints : List AuditEndpoint) (t₀ : Trace) :
    Triple observing (· = t₀) (once Γ (lookup read) configuration f endpoints)
      (fun failures t => ∃ calls, t = t₀ ++ calls ∧ RoundChecked Γ read configuration f endpoints calls failures)
      Escaped (fun _ => True) := by
  induction endpoints generalizing t₀ with
  | nil =>
    refine Triple.ret (fun t ht => ⟨[], ?_, .nil⟩) fun _ _ => trivial
    rw [ht, List.append_nil]
  | cons endpoint rest ih =>
    refine Triple.bind (endpoint_runs hread t₀) fun isMatch => Triple.of_exists fun calls => ?_
    refine Triple.assume fun hchecked => ?_
    refine Triple.bind (ih (t₀ ++ calls)) fun failures => Triple.ret (fun t h => ?_) fun _ _ => trivial
    obtain ⟨later, ht, hlater⟩ := h
    refine ⟨calls ++ later, by rw [ht, List.append_assoc], ?_⟩
    cases isMatch with
    | true => exact .matches hchecked hlater
    | false => exact .fails hchecked hlater

/-! ### All rounds -/

/-- The rounds so far failed before the deadline. -/
def Failing (Γ : Ctx) (read : List String → Except Exc (List String)) (configuration : AuditConfig) (f : String) (start : Rat)
    (attempts : Nat) (t : Trace) : Prop :=
  ∃ earlier : List FailedRound, earlier.length = attempts ∧
    (∀ round ∈ earlier, RoundChecked Γ read configuration f configuration.endpoints round.calls round.failures ∧
      round.failures ≠ [] ∧ round.clock < start + configuration.propagationTimeoutSeconds) ∧
    t = ⟨.monotonic, .ok start⟩ :: earlier.flatMap (FailedRound.trace configuration)

theorem rounds_runs (hread : ReadsOrRefuses read) (start : Rat) (passes attempts : Nat) :
    Triple observing (Failing Γ read configuration f start attempts)
      (rounds Γ (lookup read) configuration f (start + configuration.propagationTimeoutSeconds) passes attempts)
      (fun result t => ∃ earlier calls failures,
        WholeAudit Γ read configuration f start earlier calls failures t (.returned result))
      (fun x t => (∃ earlier calls failures, WholeAudit Γ read configuration f start earlier calls failures t (.raised x)) ∨
        Escaped x t) (fun _ => True) := by
  induction passes generalizing attempts with
  | zero => exact Triple.diverge fun _ _ => trivial
  | succ passes ih =>
    refine Triple.of_exists fun earlier => ?_
    intro t ⟨hlength, hearlier, ht⟩
    refine Triple.bind (P := (· = t)) ((once_runs hread configuration.endpoints t).conseq (fun _ h => h) (fun _ _ h => h)
      (fun _ _ h => Or.inr h) fun _ h => h) (fun failures => Triple.of_exists fun calls => Triple.assume fun hround => ?_) t rfl
    split
    next hnone =>
      subst hnone
      refine Triple.ret (fun t' ht' => ⟨earlier, calls, [], hearlier, hround, [], ?_, ?_⟩) fun _ _ => trivial
      · rw [hlength]
        exact .converged
      · rw [ht', ht, List.append_nil]
        rfl
    next hfailures =>
      refine Triple.bind (R := fun clock t' => t' = t ++ calls ++ [⟨.monotonic, .ok clock⟩]) ?_ fun clock => ?_
      · refine Triple.perform (fun _ _ => trivial) ?_ ?_
        · rintro _ clock t' rfl ⟨ht', -⟩
          exact ⟨ht', trivial⟩
        · rintro _ x t' rfl ⟨-, now, hnow⟩
          cases hnow
      split
      next hclock =>
        split
        next hmode =>
          refine Triple.raise (fun t' ht' => Or.inl ⟨earlier, calls, failures, hearlier, hround, _,
            .enforced hfailures hclock hmode, ?_⟩) fun _ _ => trivial
          rw [ht', ht]
          simp
        next hmode =>
          refine Triple.ret (fun t' ht' => ⟨earlier, calls, failures, hearlier, hround, [⟨.monotonic, .ok clock⟩], ?_, ?_⟩)
            fun _ _ => trivial
          · rw [hlength]
            exact .observed hfailures hclock hmode
          · rw [ht', ht]
            simp
      next hclock =>
        refine Triple.bind (R := fun _ => Failing Γ read configuration f start (attempts + 1)) ?_ fun _ => ih (attempts + 1)
        refine Triple.perform (fun _ _ => trivial) ?_ ?_
        · rintro _ _ t' rfl ⟨ht', -⟩
          refine ⟨⟨earlier ++ [⟨calls, failures, clock⟩], by simp [hlength], ?_, ?_⟩, trivial⟩
          · rw [List.forall_mem_append, List.forall_mem_singleton]
            exact ⟨hearlier, hround, hfailures, not_le.1 hclock⟩
          · rw [ht', ht]
            simp [FailedRound.trace]
        · rintro _ x t' rfl ⟨-, hok⟩
          cases hok

/-- An audit decides by its last round, or a lookup escapes it. -/
theorem audit_runs (hread : ReadsOrRefuses read) (hmode : configuration.mode ≠ .disabled) (passes : Nat)
    {o : Outcome Exc AuditResult} {t : Trace}
    (h : Exec observing (auditWith Γ (lookup read) configuration passes f) [] o t) (ho : o ≠ .crashed) :
    (∃ start earlier calls failures, WholeAudit Γ read configuration f start earlier calls failures t o) ∨
      ∃ x, o = .raised x ∧ Escaped x t := by
  have hruns : Triple observing (· = []) (auditWith Γ (lookup read) configuration passes f)
      (fun result t => ∃ start earlier calls failures,
        WholeAudit Γ read configuration f start earlier calls failures t (.returned result))
      (fun x t => (∃ start earlier calls failures,
        WholeAudit Γ read configuration f start earlier calls failures t (.raised x)) ∨ Escaped x t) (fun _ => True) := by
    unfold auditWith
    rw [if_neg hmode]
    refine Triple.bind (R := fun start => Failing Γ read configuration f start 0) ?_ fun start => ?_
    · refine Triple.perform (fun _ _ => trivial) ?_ ?_
      · rintro _ start t rfl ⟨rfl, -⟩
        exact ⟨⟨[], rfl, by simp, rfl⟩, trivial⟩
      · rintro _ x t rfl ⟨-, now, hnow⟩
        cases hnow
    · exact (rounds_runs hread start passes 0).conseq (fun _ h => h) (fun _ _ h => ⟨start, h⟩)
        (fun _ _ h => h.imp_left fun h => ⟨start, h⟩) fun _ h => h
  have hpost := hruns [] rfl o t h
  cases o with
  | returned result => exact Or.inl hpost
  | raised x => exact hpost.imp_right fun h => ⟨x, rfl, h⟩
  | crashed => exact absurd rfl ho

/-! ### Lookups -/

theorem mem_probes {endpoint : AuditEndpoint} {addresses : List String} {answers : List (Except Exc String)}
    {e : Event publisher Exc} (h : e ∈ probes configuration endpoint addresses answers) : ∃ address answer,
      e = ⟨.probe address endpoint.hostname endpoint.port configuration.retryIntervalSeconds, answer⟩ := by
  induction addresses generalizing answers with
  | nil => cases h
  | cons address rest ih =>
    cases answers with
    | nil => cases h
    | cons answer answers =>
      rcases List.mem_cons.1 h with rfl | h
      · exact ⟨address, answer, rfl⟩
      · exact ih h

theorem checked_lookup {endpoint : AuditEndpoint} {calls : Trace} {isMatch : Bool} {hostname : String} {x : Exc}
    (h : EndpointChecked Γ read configuration f endpoint calls isMatch)
    (hx : (⟨.resolve hostname, .error x⟩ : Event publisher Exc) ∈ calls) : x.isInstance .auditError = true := by
  cases h with
  | unresolved haudit =>
    cases List.mem_singleton.1 hx
    exact haudit
  | rejected => cases List.mem_singleton.1 hx
  | probed =>
    rcases List.mem_cons.1 hx with hx | hx
    · cases hx
    · obtain ⟨address, answer, heq⟩ := mem_probes hx
      cases heq

theorem round_lookup {endpoints : List AuditEndpoint} {calls : Trace} {failures : List String} {hostname : String} {x : Exc}
    (h : RoundChecked Γ read configuration f endpoints calls failures)
    (hx : (⟨.resolve hostname, .error x⟩ : Event publisher Exc) ∈ calls) : x.isInstance .auditError = true := by
  induction h with
  | nil => cases hx
  | «matches» hchecked _ ih | fails hchecked _ ih => exact (List.mem_append.1 hx).elim (checked_lookup hchecked) ih

theorem run_lookup {start : Rat} {earlier : List FailedRound} {calls : Trace} {failures : List String} {t : Trace}
    {o : Outcome Exc AuditResult} {hostname : String} {x : Exc}
    (h : WholeAudit Γ read configuration f start earlier calls failures t o)
    (hx : (⟨.resolve hostname, .error x⟩ : Event publisher Exc) ∈ t) : x.isInstance .auditError = true := by
  obtain ⟨ending, hdecided, rfl⟩ := h.decides
  rcases List.mem_cons.1 hx with hx | hx
  · cases hx
  rcases List.mem_append.1 hx with hx | hx
  · rcases List.mem_append.1 hx with hx | hx
    · obtain ⟨round, hround, hx⟩ := List.mem_flatMap.1 hx
      rcases List.mem_append.1 hx with hx | hx
      · exact round_lookup (h.earlier_failed round hround).1 hx
      · rcases List.mem_cons.1 hx with hx | hx
        · cases hx
        · cases List.mem_singleton.1 hx
    · exact round_lookup h.last hx
  · cases hdecided with
    | converged => cases hx
    | observed | enforced => cases List.mem_singleton.1 hx

end AuditRoundsAux

/-! ## The clock -/

/-- The clock never runs backwards, and a pause takes at least as long as it says. -/
def ticking : Env publisher Exc Rat := fun now op r now' => now ≤ now' ∧
  match op, r with
  | .monotonic, .ok reading => reading = now'
  | .wait seconds, .ok _ => now + seconds ≤ now'
  | .monotonic, .error _ | .wait _, .error _ => False
  | _, _ => True

/-- Resolver and probe return or raise `AuditError`. -/
def audited (op : Op) (r : Except Exc op.Reply) : Prop :=
  match op, r with
  | .resolve _, .error x | .probe .., .error x => x.isInstance .auditError = true
  | _, _ => True

/-- Endpoints whose problems are `AuditError`s, beside a clock. -/
def auditing : Env publisher Exc Rat := fun now op r now' => ticking now op r now' ∧ audited op r

/-- As many rounds as fit before the deadline. -/
def AuditConfig.roundsBefore (configuration : AuditConfig) : Nat :=
  ⌈(configuration.propagationTimeoutSeconds : Rat) / configuration.retryIntervalSeconds⌉₊

namespace AuditRoundsAux

open AuditService

variable {Γ : Ctx} {read : List String → Except Exc (List String)} {configuration : AuditConfig} {f : String} {start : Rat}

theorem isException_of_auditError {x : Exc} (h : x.isInstance .auditError = true) : x.isInstance .exception = true := by
  cases x with
  | of cls message =>
    unfold Exc.isInstance at h ⊢
    cases cls with
    | auditError => rfl
    | _ => cases h
  | service => cases h

theorem calm_of_auditing {now now' : Rat} {op : Op} {r : Except Exc op.Reply} (h : auditing now op r now') : calm op r := by
  obtain ⟨⟨-, hclock⟩, haudited⟩ := h
  cases op with
  | monotonic =>
    cases r with
    | ok reading => exact ⟨reading, rfl⟩
    | error => exact hclock.elim
  | wait =>
    cases r with
    | ok => rfl
    | error => exact hclock.elim
  | probe =>
    rintro x rfl
    exact isException_of_auditError haudited
  | _ => trivial

/-- Time passes from `low`: readings do not lie before it, and a pause moves it. -/
def Clocked : Rat → Trace → Prop
  | _, [] => True
  | low, ⟨.monotonic, .ok reading⟩ :: rest => low ≤ reading ∧ Clocked reading rest
  | low, ⟨.wait seconds, .ok _⟩ :: rest => Clocked (low + seconds) rest
  | low, _ :: rest => Clocked low rest

theorem clocked_cons {low now now' : Rat} {op : Op} {r : Except Exc op.Reply} {rest : Trace} (hlow : low ≤ now)
    (h : ticking now op r now') (hrest : ∀ low', low' ≤ now' → Clocked low' rest) : Clocked low (⟨op, r⟩ :: rest) := by
  obtain ⟨hle, hclock⟩ := h
  have hsame : Clocked low rest := hrest low (hlow.trans hle)
  cases op with
  | monotonic =>
    cases r with
    | ok reading =>
      have hreading : reading = now' := hclock
      exact ⟨by rw [hreading]; exact hlow.trans hle, hrest _ hreading.le⟩
    | error => exact hclock.elim
  | wait seconds =>
    cases r with
    | ok =>
      have hpause : now + seconds ≤ now' := hclock
      exact hrest _ ((add_le_add_left hlow _).trans hpause)
    | error => exact hclock.elim
  | _ => exact hsame

/-- The trace of a run beside a clock. -/
theorem clocked_run {α : Type} {p : Action α} {w w' : Rat × Trace} {o : Outcome Exc α}
    (h : Exec (recording auditing) p w o w') :
    ∃ s, w'.2 = w.2 ++ s ∧ (∀ low, low ≤ w.1 → Clocked low s) ∧ ∀ e ∈ s, audited e.op e.answer := by
  induction h with
  | ret | raise | crash => exact ⟨[], by simp, fun _ _ => trivial, by simp⟩
  | @call op k w w₁ w₂ r o he _ ih =>
    obtain ⟨⟨hticking, haudited⟩, hlog⟩ := he
    obtain ⟨s, hs, hclocked, hall⟩ := ih
    refine ⟨⟨op, r⟩ :: s, by rw [hs, hlog, List.append_assoc]; rfl, fun low hlow => clocked_cons hlow hticking hclocked, ?_⟩
    exact List.forall_mem_cons.2 ⟨haudited, hall⟩

/-- What has no part in the clock. -/
def timeless (e : Event publisher Exc) : Prop :=
  match e.op with
  | .resolve _ | .probe .. => True
  | _ => False

theorem clocked_append {low : Rat} {calls rest : Trace} (hcalls : ∀ e ∈ calls, timeless e)
    (h : Clocked low (calls ++ rest)) : Clocked low rest := by
  induction calls with
  | nil => exact h
  | cons e calls ih =>
    obtain ⟨he, hrest⟩ := List.forall_mem_cons.1 hcalls
    obtain ⟨op, r⟩ := e
    cases op with
    | resolve | probe => exact ih hrest h
    | _ => exact he.elim

theorem timeless_checked {endpoint : AuditEndpoint} {calls : Trace} {isMatch : Bool}
    (h : EndpointChecked Γ read configuration f endpoint calls isMatch) : ∀ e ∈ calls, timeless e := by
  intro e he
  cases h with
  | unresolved | rejected =>
    rw [List.mem_singleton.1 he]
    trivial
  | probed =>
    rcases List.mem_cons.1 he with rfl | he
    · trivial
    · obtain ⟨address, answer, rfl⟩ := mem_probes he
      trivial

theorem timeless_round {endpoints : List AuditEndpoint} {calls : Trace} {failures : List String}
    (h : RoundChecked Γ read configuration f endpoints calls failures) : ∀ e ∈ calls, timeless e := by
  induction h with
  | nil => simp
  | «matches» hchecked _ ih | fails hchecked _ ih => exact List.forall_mem_append.2 ⟨timeless_checked hchecked, ih⟩

/-- Rounds that fail before the deadline take the interval each, but the first. -/
theorem clocked_rounds {deadline low : Rat} {round : FailedRound} {earlier : List FailedRound} {rest : Trace}
    (hrounds : ∀ r ∈ round :: earlier, (∀ e ∈ r.calls, timeless e) ∧ r.clock < deadline)
    (h : Clocked low ((round :: earlier).flatMap (FailedRound.trace configuration) ++ rest)) :
    low + earlier.length * configuration.retryIntervalSeconds < deadline := by
  induction earlier generalizing low round with
  | nil =>
    obtain ⟨htimeless, hclock⟩ := hrounds round List.mem_cons_self
    rw [List.flatMap_cons, FailedRound.trace, List.append_assoc, List.append_assoc] at h
    obtain ⟨hreading, -⟩ := clocked_append htimeless h
    simpa using hreading.trans_lt hclock
  | cons next earlier ih =>
    obtain ⟨⟨htimeless, -⟩, hlater⟩ := List.forall_mem_cons.1 hrounds
    rw [List.flatMap_cons, FailedRound.trace, List.append_assoc, List.append_assoc] at h
    obtain ⟨hreading, hpause⟩ := clocked_append htimeless h
    have hnext := ih hlater hpause
    rw [List.length_cons]
    push_cast
    linarith

theorem roundsBefore_of_lt (hinterval : 0 < configuration.retryIntervalSeconds) {n : Nat}
    (h : start + n * (configuration.retryIntervalSeconds : Rat) < start + configuration.propagationTimeoutSeconds) :
    n + 1 ≤ configuration.roundsBefore := by
  have hpos : (0 : Rat) < configuration.retryIntervalSeconds := Nat.cast_pos.2 hinterval
  unfold AuditConfig.roundsBefore
  rw [Nat.succ_le_iff, Nat.lt_ceil, lt_div_iff₀ hpos]
  linarith

/-- So many rounds fail before the deadline. -/
theorem earlier_bounded (hinterval : 0 < configuration.retryIntervalSeconds) {earlier : List FailedRound} {calls : Trace}
    {failures : List String} {t : Trace} {o : Outcome Exc AuditResult} {low : Rat}
    (h : WholeAudit Γ read configuration f start earlier calls failures t o) (hclocked : Clocked low t) :
    earlier.length ≤ configuration.roundsBefore := by
  obtain ⟨ending, -, rfl⟩ := h.decides
  obtain ⟨-, hclocked⟩ := hclocked
  cases earlier with
  | nil => exact Nat.zero_le _
  | cons round earlier =>
    rw [List.append_assoc] at hclocked
    refine roundsBefore_of_lt hinterval (clocked_rounds (fun r hr => ?_) hclocked)
    obtain ⟨hround, -, hclock⟩ := h.earlier_failed r hr
    exact ⟨timeless_round hround, hclock⟩

/-! ### Termination -/

theorem halts_ofExcept {α : Type} (e : Except Exc α) : (ofExcept e : Action α).Halts := by
  cases e <;> trivial

theorem halts_gather (endpoint : AuditEndpoint) (timeoutSeconds : Nat) (addresses : List String) :
    (gather endpoint timeoutSeconds addresses).Halts := by
  induction addresses with
  | nil => trivial
  | cons address rest ih =>
    refine Program.halts_bind (Program.halts_attempt Program.halts_perform) fun outcome => ?_
    cases outcome with
    | ok fingerprint => exact Program.halts_bind ih fun _ => trivial
    | error error =>
      simp only
      split
      · exact Program.halts_bind ih fun _ => trivial
      · trivial

theorem halts_once (endpoints : List AuditEndpoint) : (once Γ (lookup read) configuration f endpoints).Halts := by
  induction endpoints with
  | nil => trivial
  | cons endpoint rest ih =>
    refine Program.halts_bind ?_ fun _ => Program.halts_bind ih fun _ => trivial
    refine Program.halts_handle ?_ fun x => ?_
    · refine Program.halts_bind (Program.halts_bind Program.halts_perform fun _ => halts_ofExcept _) fun addresses => ?_
      exact Program.halts_bind (halts_ofExcept _) fun _ => Program.halts_bind (halts_gather _ _ _) fun _ => trivial
    · split <;> trivial

theorem ticking_mono {α : Type} {p : Action α} {now now' : Rat} {o : Outcome Exc α} (h : Exec ticking p now o now') :
    now ≤ now' := by
  induction h with
  | ret | raise | crash => exact le_rfl
  | call he _ ih => exact he.1.trans ih

theorem ends_rounds (hinterval : 0 < configuration.retryIntervalSeconds) {passes attempts : Nat} {now : Rat}
    (hpasses : configuration.roundsBefore + 1 ≤ attempts + passes) (hattempts : attempts ≤ configuration.roundsBefore)
    (hnow : start + attempts * configuration.retryIntervalSeconds ≤ now) :
    (rounds Γ (lookup read) configuration f (start + configuration.propagationTimeoutSeconds) passes attempts).Ends ticking
      now := by
  induction passes generalizing attempts now with
  | zero => omega
  | succ passes ih =>
    refine Program.ends_bind ((halts_once _).ends _) fun failures now₁ hround => ?_
    split
    · trivial
    · refine Program.ends_bind (Program.halts_perform.ends _) fun clock now₂ hread => ?_
      split
      next => split <;> trivial
      next hclock =>
        refine Program.ends_bind (Program.halts_perform.ends _) fun _ now₃ hpause => ?_
        have hreading : clock = now₂ := hread.performed.2
        have hlater : now₂ + configuration.retryIntervalSeconds ≤ now₃ := hpause.performed.2
        have hpassed := (ticking_mono hround).trans (ticking_mono hread)
        have hbefore : start + attempts * configuration.retryIntervalSeconds <
            start + configuration.propagationTimeoutSeconds := by
          rw [hreading] at hclock
          exact (hnow.trans hpassed).trans_lt (not_le.1 hclock)
        refine ih (by omega) (roundsBefore_of_lt hinterval hbefore) ?_
        push_cast
        linarith

theorem ends_audit (hinterval : 0 < configuration.retryIntervalSeconds) {passes : Nat}
    (hpasses : configuration.roundsBefore + 1 ≤ passes) (now : Rat) :
    (auditWith Γ (lookup read) configuration passes f).Ends ticking now := by
  unfold auditWith
  split
  · trivial
  refine Program.ends_bind (Program.halts_perform.ends _) fun start now₁ hread => ?_
  have hreading : start = now₁ := hread.performed.2
  exact ends_rounds hinterval (by omega) (Nat.zero_le _) (by simp [hreading])

end AuditRoundsAux

/-- What an audit that is not switched off answers: in observe mode a result, in enforce mode success or `AuditError`. -/
def AuditVerdict (mode : AuditMode) (o : Outcome Exc AuditResult) : Prop :=
  match mode, o with
  | .observe, .returned _ => True
  | .enforce, .returned result => result.successful = true
  | .enforce, .raised x => x.isInstance .auditError = true
  | _, _ => False

open AuditRoundsAux in
/-- An audit turns every endpoint problem into a verdict exactly where no lookup raises anything but `AuditError`: then it decides by
its last round, in which every endpoint was checked and those that did not resolve are among the failures. Whatever the endpoints
do, beside a clock that never runs backwards it comes to an end. -/
theorem audit_verdict_iff (Γ : Ctx) {read : List String → Except Exc (List String)} (hread : ReadsOrRefuses read)
    {configuration : AuditConfig} (hmode : configuration.mode ≠ .disabled) (hinterval : 0 < configuration.retryIntervalSeconds)
    (f : String) :
    (∀ passes now, configuration.roundsBefore + 1 ≤ passes →
        (AuditService.auditWith Γ (AuditService.lookup read) configuration passes f).Ends ticking now) ∧
      ∀ passes o t, Exec observing (AuditService.auditWith Γ (AuditService.lookup read) configuration passes f) [] o t →
        o ≠ .crashed →
          ((AuditVerdict configuration.mode o ∧
              ∃ start earlier calls failures, WholeAudit Γ read configuration f start earlier calls failures t o) ↔
            ∀ hostname x, (⟨.resolve hostname, .error x⟩ : Event publisher Exc) ∈ t → x.isInstance .auditError = true) := by
  refine ⟨fun passes now hpasses => ends_audit hinterval hpasses now, fun passes o t h ho => ⟨?_, fun hlookups => ?_⟩⟩
  · rintro ⟨-, start, earlier, calls, failures, hrun⟩ hostname x hx
    exact run_lookup hrun hx
  · rcases audit_runs hread hmode passes h ho with
      ⟨start, earlier, calls, failures, hrun⟩ | ⟨x, rfl, hother, past, hostname, rfl⟩
    · refine ⟨?_, start, earlier, calls, failures, hrun⟩
      obtain ⟨ending, hdecided, -⟩ := hrun.decides
      cases hm : configuration.mode with
      | disabled => exact absurd hm hmode
      | observe =>
        cases hdecided with
        | converged | observed => trivial
        | enforced _ _ henforce => cases hm.symm.trans henforce
      | enforce =>
        cases hdecided with
        | converged => rfl
        | observed _ _ hobserve => exact absurd hm hobserve
        | enforced => rfl
    · have haudit := hlookups hostname x (List.mem_append_right _ (List.mem_singleton_self _))
      rw [hother] at haudit
      cases haudit

namespace AuditRoundsSample

/-- Two endpoints, and a second to wait for them. -/
def endpoints (mode : AuditMode) : AuditConfig where
  mode := mode
  propagationTimeoutSeconds := 1
  retryIntervalSeconds := 1
  endpoints := [⟨"a.example", 443⟩, ⟨"b.example", 443⟩]

theorem roundsBefore_endpoints (mode : AuditMode) : (endpoints mode).roundsBefore = 1 := by
  simp [AuditConfig.roundsBefore, endpoints]

def answer (x : Exc) (t : Trace) : (op : Op) → Except Exc op.Reply
  | .resolve hostname => if hostname = "a.example" then .error x else .ok ["192.0.2.1"]
  | .probe .. => .ok "new"
  | .monotonic => .ok t.length
  | .wait _ => .ok ()
  | _ => .error (.of .runtimeError "not asked")

/-- The lookup of the first endpoint raises. -/
def unresolved (x : Exc) : Handler publisher Exc Trace := fun t op => some (answer x t op, t ++ [⟨op, answer x t op⟩])

theorem unresolved_allowed (x : Exc) : (unresolved x).Allowed observing := by
  intro t op r t' h
  cases h
  refine ⟨rfl, ?_⟩
  cases op with
  | monotonic => exact ⟨_, rfl⟩
  | wait => rfl
  | probe => exact nofun
  | _ => trivial

/-- A lookup that raises raises `AuditError`. -/
def refuses : Event publisher Exc → Bool
  | ⟨.resolve _, .error x⟩ => x.isInstance .auditError
  | _ => true

def run (x : Exc) : Outcome Exc AuditResult × Trace :=
  (AuditService.auditWith Sample.addressed (AuditService.lookup AuditService.systemAddresses) (endpoints .observe) 1 "new").runFor
    (unresolved x) 20 []

theorem run_exec (x : Exc) : Exec observing (AuditService.auditWith Sample.addressed
    (AuditService.lookup AuditService.systemAddresses) (endpoints .observe) 1 "new") [] (run x).1 (run x).2 :=
  exec_runFor (unresolved_allowed x) 20 _ _

end AuditRoundsSample

/-- It does not in general: a failed name resolution leaves the audit, and the other endpoint is not checked. -/
theorem audit_verdict_false :
    ∃ t, Exec observing (AuditService.audit Sample.addressed (AuditRoundsSample.endpoints .observe) 1 "new") []
        (.raised (.of .osError "Name or service not known")) t ∧
      ¬AuditVerdict .observe (.raised (.of .osError "Name or service not known")) ∧
      t.all (fun e => decide (e.op ≠ .resolve "b.example")) = true := by
  have hraised : (AuditRoundsSample.run (.of .osError "Name or service not known")).1 =
      .raised (.of .osError "Name or service not known") := by decide +kernel
  have h := AuditRoundsSample.run_exec (.of .osError "Name or service not known")
  rw [hraised, ← AuditService.resolveEndpointAddresses_eq] at h
  exact ⟨_, h, id, by decide +kernel⟩

/-- An endpoint whose resolver raises `AuditError` is reported, and two rounds are enough. -/
theorem audit_verdict_iff_sample :
    (AuditService.auditWith Sample.addressed (AuditService.lookup AuditService.systemAddresses) (AuditRoundsSample.endpoints .observe)
        2 "new").Ends ticking 0 ∧
      (AuditRoundsSample.run (auditError "no address")).1 = .returned ⟨false, 1, ["a.example:443"]⟩ ∧
      AuditVerdict .observe (AuditRoundsSample.run (auditError "no address")).1 := by
  have hreturned : (AuditRoundsSample.run (auditError "no address")).1 = .returned ⟨false, 1, ["a.example:443"]⟩ := by
    decide +kernel
  have hrefused : (AuditRoundsSample.run (auditError "no address")).2.all AuditRoundsSample.refuses = true := by
    decide +kernel
  have hmode : (AuditRoundsSample.endpoints .observe).mode ≠ .disabled := nofun
  obtain ⟨hends, hruns⟩ := audit_verdict_iff Sample.addressed readsOrRefuses_system hmode Nat.one_pos "new"
  have hverdict := hruns 1 _ _ (AuditRoundsSample.run_exec (auditError "no address")) (by rw [hreturned]; exact nofun)
  refine ⟨hends 2 0 ?_, hreturned, (hverdict.2 ?_).1⟩
  · rw [AuditRoundsSample.roundsBefore_endpoints]
  · exact fun hostname x hx => List.all_eq_true.1 hrefused _ hx

open AuditRoundsAux in
/-- The audit loop is bounded, and decides by its last round. Beside a clock that never runs backwards it makes at most one round
more than fit before the deadline. It succeeds in the first round in which every endpoint matches, and fails with exactly the
endpoints that do not match in a round after which the deadline has passed. -/
theorem audit_bounded (Γ : Ctx) {read : List String → Except Exc (List String)} (hread : ReadsOrRefuses read)
    {configuration : AuditConfig} (hmode : configuration.mode ≠ .disabled) (hinterval : 0 < configuration.retryIntervalSeconds)
    (f : String) {passes : Nat} (hpasses : configuration.roundsBefore + 1 ≤ passes) (now : Rat) :
    (AuditService.auditWith Γ (AuditService.lookup read) configuration passes f).Ends auditing now ∧
      ∀ o now' t, Exec (recording auditing) (AuditService.auditWith Γ (AuditService.lookup read) configuration passes f)
        (now, []) o (now', t) → o ≠ .crashed →
        ∃ start earlier calls failures, WholeAudit Γ read configuration f start earlier calls failures t o ∧
          earlier.length + 1 ≤ configuration.roundsBefore + 1 := by
  refine ⟨(ends_audit hinterval hpasses now).mono fun _ _ _ _ h => h.1, fun o now' t h ho => ?_⟩
  obtain ⟨s, hs, hclocked, haudited⟩ := clocked_run h
  have hst : s = t := hs.symm
  subst hst
  have hobserved : Exec observing (AuditService.auditWith Γ (AuditService.lookup read) configuration passes f) [] o s :=
    h.map (fun w => w.2) fun w op r w' he => ⟨he.2, calm_of_auditing he.1⟩
  rcases audit_runs hread hmode passes hobserved ho with
    ⟨start, earlier, calls, failures, hrun⟩ | ⟨x, -, hother, past, host, rfl⟩
  · exact ⟨start, earlier, calls, failures, hrun, Nat.succ_le_succ (earlier_bounded hinterval hrun (hclocked now le_rfl))⟩
  · have hx := haudited _ (List.mem_append_right past (List.mem_singleton_self _))
    rw [show x.isInstance .auditError = true from hx] at hother
    cases hother

namespace AuditRoundsSample

/-- The endpoints present the certificate from time 1 on. -/
def renewed : Handler publisher Exc Rat := fun now op =>
  match op with
  | .monotonic => some (.ok now, now)
  | .wait seconds => some (.ok (), now + seconds)
  | .resolve _ => some (.ok ["192.0.2.1"], now)
  | .probe .. => some (.ok (if 1 ≤ now then "new" else "old"), now)
  | _ => none

theorem renewed_allowed : renewed.Allowed auditing := by
  intro now op r now' h
  cases op with
  | monotonic | resolve | probe =>
    cases h
    exact ⟨⟨le_rfl, by trivial⟩, trivial⟩
  | wait seconds =>
    cases h
    exact ⟨⟨le_add_of_nonneg_right (Nat.cast_nonneg seconds), le_rfl⟩, trivial⟩
  | _ => cases h

def renewal : Outcome Exc AuditResult × Rat × Trace :=
  (AuditService.auditWith Sample.addressed (AuditService.lookup AuditService.systemAddresses) (endpoints .enforce) 2 "new").runFor
    renewed.record 20 (0, [])

end AuditRoundsSample

/-- An audit that converges in its second round, at the deadline. -/
theorem audit_bounded_sample : ∃ start earlier calls failures,
    WholeAudit Sample.addressed AuditService.systemAddresses (AuditRoundsSample.endpoints .enforce) "new" start earlier calls failures
      AuditRoundsSample.renewal.2.2 (.returned ⟨true, 2, []⟩) ∧ earlier.length + 1 ≤ 2 := by
  have hreturned : AuditRoundsSample.renewal.1 = .returned ⟨true, 2, []⟩ := by decide +kernel
  have hmode : (AuditRoundsSample.endpoints .enforce).mode ≠ .disabled := nofun
  have hpasses : (AuditRoundsSample.endpoints .enforce).roundsBefore + 1 ≤ 2 := by
    rw [AuditRoundsSample.roundsBefore_endpoints]
  have hruns := (audit_bounded Sample.addressed readsOrRefuses_system hmode Nat.one_pos "new" hpasses 0).2
  rw [AuditRoundsSample.roundsBefore_endpoints] at hruns
  exact hruns _ AuditRoundsSample.renewal.2.1 AuditRoundsSample.renewal.2.2
    (exec_of_runFor AuditRoundsSample.renewed_allowed.record hreturned) nofun

end OciAcmePublisher
