import OciAcmePublisher.Http01Preflight
import OciAcmePublisher.Simulation

/-!
# When the preflight passes

The preflight is compared with the route it is to confirm. It lets through what a resolver raises besides `PreflightError`, and with
the tolerant policy it does not ask that any address served the token.
-/

namespace OciAcmePublisher

open Http01Preflight

section Routes

variable (Γ : Ctx) (policy : SelfCheckConfig)

/-- The addresses of a route are valid under the policy. -/
def RouteValid (addresses : List (String × Except Exc Unit)) : Prop :=
  ∀ address ∈ addresses, Γ.isIpAddress address.1 = true ∧
    (policy.rejectNonGlobalAddresses = true → Γ.isGlobal address.1 = true)

/-- The route works: all addresses are valid, and the policy's part of them served the token. -/
def RouteWorks (route : DomainRoute) : Prop :=
  ∃ addresses, route = .ok addresses ∧ RouteValid Γ policy addresses ∧
    if policy.requireAllAddresses then ∀ address ∈ addresses, address.2 = .ok () else ∃ address ∈ addresses, address.2 = .ok ()

/-- The check of the route raises: the resolver does, an address is not valid, or one that is required did not serve the token. -/
def RouteRefused (route : DomainRoute) : Prop :=
  ∀ addresses, route = .ok addresses → RouteValid Γ policy addresses →
    policy.requireAllAddresses = true ∧ ∃ address ∈ addresses, address.2 ≠ .ok ()

/-- The preflight passes exactly when every route works, and raises `PreflightError` otherwise. -/
def PreflightExact (route : String → DomainRoute) (domains : List String) (result : Except Exc Unit) : Prop :=
  ((∀ domain ∈ domains, RouteWorks Γ policy (route domain)) → result = .ok ()) ∧
    ((¬∀ domain ∈ domains, RouteWorks Γ policy (route domain)) →
      ∃ error, result = .error error ∧ error.isInstance .preflightError = true)

/-- The error of a resolver comes out of the preflight as `PreflightError`. -/
def ExpectedError (error : Exc) : Prop := error.isInstance .preflightError = true ∨ error.isInstance .timeoutError = true

/-- The checks of the domains, in the order they end, are as the preflight expects: the first that raises does not raise an error of
a resolver that is not contained, and where none does some address of every domain served the token. -/
structure RoutesExpected (route : String → DomainRoute) (completion : List String) : Prop where
  contained : ∀ before domain after error, completion = before ++ domain :: after → route domain = .error error →
    (∀ earlier ∈ before, ¬RouteRefused Γ policy (route earlier)) → ExpectedError error
  served : (∀ domain ∈ completion, ¬RouteRefused Γ policy (route domain)) → policy.requireAllAddresses = false →
    ∀ domain ∈ completion, ∀ addresses, route domain = .ok addresses → ∃ address ∈ addresses, address.2 = .ok ()

end Routes

namespace PreflightRouteAux

variable {Γ : Ctx} {policy : SelfCheckConfig} {route : String → DomainRoute} {r : DomainRoute}

theorem validateAddresses_iff (addresses : List (String × Except Exc Unit)) :
    validateAddresses Γ (addresses.map (·.1)) policy.rejectNonGlobalAddresses = .ok () ↔ RouteValid Γ policy addresses :=
  (AuditService.forM_checks_iff _).trans List.forall_mem_map

theorem raisesOnly_validateAddresses (addresses : List String) (rejectNonGlobal : Bool) :
    RaisesOnly .preflightError (validateAddresses Γ addresses rejectNonGlobal) := by
  intro error h
  rcases AuditService.forM_checks_error h with rfl | rfl <;> rfl

theorem collectErrors_eq_nil (results : List (Except Exc Unit)) : collectErrors results = [] ↔ ∀ r ∈ results, r = .ok () := by
  unfold collectErrors
  induction results with
  | nil => simp
  | cons result rest ih =>
    cases result with
    | ok => simpa using ih
    | error x => simp

/-- What the check of a domain raises: the resolver's error, or `PreflightError` for a route that is refused. -/
theorem checkDomain_cases (r : DomainRoute) :
    (checkDomain Γ policy r = .ok () ∧ ¬RouteRefused Γ policy r) ∨
      ∃ error, checkDomain Γ policy r = .error error ∧ RouteRefused Γ policy r ∧
        (r = .error error ∨ ((∃ addresses, r = .ok addresses) ∧ error.isInstance .preflightError = true)) := by
  cases r with
  | error x => exact Or.inr ⟨x, rfl, nofun, Or.inl rfl⟩
  | ok addresses =>
    have hiff := @validateAddresses_iff Γ policy addresses
    have hcheck : checkDomain Γ policy (.ok addresses) =
        (validateAddresses Γ (addresses.map (·.1)) policy.rejectNonGlobalAddresses).bind fun _ =>
          if collectErrors (addresses.map (·.2)) ≠ [] ∧ policy.requireAllAddresses = true then
            .error (preflightError "one or more HTTP-01 addresses failed preflight")
          else .ok () := rfl
    rw [hcheck]
    cases hvalid : validateAddresses Γ (addresses.map (·.1)) policy.rejectNonGlobalAddresses with
    | error x =>
      refine Or.inr ⟨x, rfl, ?_, Or.inr ⟨⟨addresses, rfl⟩, raisesOnly_validateAddresses _ _ x hvalid⟩⟩
      rintro _ ⟨⟩ hroute
      rw [hiff.2 hroute] at hvalid
      cases hvalid
    | ok u =>
      simp only [Except.bind]
      split
      next hfailed =>
        refine Or.inr ⟨_, rfl, ?_, Or.inr ⟨⟨addresses, rfl⟩, rfl⟩⟩
        rintro _ ⟨⟩ -
        refine ⟨hfailed.2, by_contra fun hnone => hfailed.1 ((collectErrors_eq_nil _).2 ?_)⟩
        intro result hresult
        obtain ⟨address, haddress, rfl⟩ := List.mem_map.1 hresult
        exact by_contra fun h => hnone ⟨address, haddress, h⟩
      next hpassed =>
        refine Or.inl ⟨rfl, fun hrefused => hpassed ?_⟩
        obtain ⟨hrequired, address, haddress, hfailed⟩ := hrefused addresses rfl (hiff.1 hvalid)
        refine ⟨fun hnil => hfailed ?_, hrequired⟩
        exact (collectErrors_eq_nil _).1 hnil _ (List.mem_map_of_mem haddress)

/-- How the checks end together: none raises, or the first that does decides. -/
theorem gather_cases (completion : List String) :
    (gather (completion.map fun domain => checkDomain Γ policy (route domain)) = .ok () ∧
        ∀ domain ∈ completion, ¬RouteRefused Γ policy (route domain)) ∨
      ∃ before domain after error, completion = before ++ domain :: after ∧
        (∀ earlier ∈ before, ¬RouteRefused Γ policy (route earlier)) ∧ RouteRefused Γ policy (route domain) ∧
        gather (completion.map fun domain => checkDomain Γ policy (route domain)) = .error error ∧
        (route domain = .error error ∨
          ((∃ addresses, route domain = .ok addresses) ∧ error.isInstance .preflightError = true)) := by
  induction completion with
  | nil => exact Or.inl ⟨rfl, by simp⟩
  | cons domain rest ih =>
    rw [List.map_cons]
    rcases @checkDomain_cases Γ policy (route domain) with ⟨hok, hpassed⟩ | ⟨error, hraised, hrefused, hcause⟩
    · rw [hok]
      rcases ih with ⟨hrest, hall⟩ | ⟨before, next, after, error, rfl, hbefore, hrefused, hgather, hcause⟩
      · exact Or.inl ⟨hrest, List.forall_mem_cons.2 ⟨hpassed, hall⟩⟩
      · exact Or.inr ⟨domain :: before, next, after, error, rfl, List.forall_mem_cons.2 ⟨hpassed, hbefore⟩, hrefused, hgather,
          hcause⟩
    · rw [hraised]
      exact Or.inr ⟨[], domain, rest, error, rfl, by simp, hrefused, rfl, hcause⟩

theorem not_refused_of_works (h : RouteWorks Γ policy r) : ¬RouteRefused Γ policy r := by
  obtain ⟨addresses, hroute, hvalid, hserved⟩ := h
  intro hrefused
  obtain ⟨hrequired, address, haddress, hfailed⟩ := hrefused addresses hroute hvalid
  rw [if_pos hrequired] at hserved
  exact hfailed (hserved address haddress)

/-- A route that passes its check works, if some address served the token where not all have to. -/
theorem works_of_not_refused (h : ¬RouteRefused Γ policy r)
    (hserved : policy.requireAllAddresses = false → ∀ addresses, r = .ok addresses →
      ∃ address ∈ addresses, address.2 = .ok ()) :
    RouteWorks Γ policy r := by
  unfold RouteRefused at h
  push Not at h
  obtain ⟨addresses, hroute, hvalid, hpassed⟩ := h
  refine ⟨addresses, hroute, hvalid, ?_⟩
  split
  next hrequired => exact hpassed hrequired
  next htolerant => exact hserved (by simpa using htolerant) addresses hroute

theorem not_preflightError {x : Exc} (h : x.isOneOf [.osError, .challengeFileError] = true) :
    ¬x.isInstance .preflightError = true := by
  have hclass : ∀ c : ExcClass, (c.mro.contains .osError || c.mro.contains .challengeFileError) = true →
      ¬c.mro.contains .preflightError = true := by
    intro c
    cases c <;> decide
  refine hclass x.cls ?_
  unfold Exc.isOneOf at h
  simpa [Exc.isInstance] using h

/-- Where the file raises, the preflight is not exact. -/
theorem not_exact_of_file {domains : List String} {x : Exc} (hx : x.isOneOf [.osError, .challengeFileError] = true) :
    ¬PreflightExact Γ policy route domains (.error x) := by
  rintro ⟨hpasses, hraises⟩
  by_cases hworks : ∀ domain ∈ domains, RouteWorks Γ policy (route domain)
  · cases hpasses hworks
  · obtain ⟨error, herror, hpreflight⟩ := hraises hworks
    cases herror
    exact not_preflightError hx hpreflight

theorem run_passed {completion : List String} {file : SyntheticFile} (henabled : policy.enabled = true)
    (hwritten : file.written = .ok ()) (hremoved : file.removed = .ok ())
    (hgather : gather (completion.map fun domain => checkDomain Γ policy (route domain)) = .ok ()) :
    run Γ policy file route completion = .ok () := by
  unfold run
  rw [henabled, hwritten, hremoved, hgather]
  rfl

theorem run_failed {completion : List String} {file : SyntheticFile} {error : Exc} (henabled : policy.enabled = true)
    (hwritten : file.written = .ok ()) (hremoved : file.removed = .ok ())
    (hgather : gather (completion.map fun domain => checkDomain Γ policy (route domain)) = .error error) :
    run Γ policy file route completion =
      if error.isInstance .timeoutError then .error (preflightError "HTTP-01 preflight exceeded its total timeout")
      else .error error := by
  unfold run
  rw [henabled, hwritten, hremoved, hgather]
  rfl

/-- The first entry with a property is the same in every split. -/
theorem first_unique {p : String → Prop} {x y : String} {before before' after after' : List String}
    (hsplit : before ++ x :: after = before' ++ y :: after') (hbefore : ∀ z ∈ before, ¬p z) (hx : p x)
    (hbefore' : ∀ z ∈ before', ¬p z) (hy : p y) : y = x ∧ before' = before := by
  rcases List.append_eq_append_iff.1 hsplit with ⟨middle, hlonger, hrest⟩ | ⟨middle, hlonger, hrest⟩
  · cases middle with
    | nil =>
      rw [List.nil_append] at hrest
      rw [List.append_nil] at hlonger
      exact ⟨(List.cons.inj hrest).1.symm, hlonger⟩
    | cons next middle =>
      have hnext : next = x := (List.cons.inj hrest).1.symm
      refine absurd hx (hbefore' x ?_)
      rw [hlonger, hnext]
      simp
  · cases middle with
    | nil =>
      rw [List.nil_append] at hrest
      rw [List.append_nil] at hlonger
      exact ⟨(List.cons.inj hrest).1, hlonger.symm⟩
    | cons next middle =>
      have hnext : next = y := (List.cons.inj hrest).1.symm
      refine absurd hy (hbefore y ?_)
      rw [hlonger, hnext]
      simp

/-- Over a file that is written and removed. -/
theorem exact_iff_expected {domains completion : List String} (horder : completion.Perm domains) {file : SyntheticFile}
    (henabled : policy.enabled = true) (hwritten : file.written = .ok ()) (hremoved : file.removed = .ok ()) :
    PreflightExact Γ policy route domains (run Γ policy file route completion) ↔ RoutesExpected Γ policy route completion := by
  have hdomains : (∀ domain ∈ domains, RouteWorks Γ policy (route domain)) ↔
      ∀ domain ∈ completion, RouteWorks Γ policy (route domain) := by
    simp only [horder.mem_iff]
  unfold PreflightExact
  rw [hdomains]
  rcases @gather_cases Γ policy route completion with
    ⟨hgather, hall⟩ | ⟨before, domain, after, error, rfl, hbefore, hrefused, hgather, hcause⟩
  · -- no check raises: the preflight passes
    rw [run_passed henabled hwritten hremoved hgather]
    constructor
    · rintro ⟨-, hraises⟩
      have hworks : ∀ domain ∈ completion, RouteWorks Γ policy (route domain) := by
        by_contra hnot
        obtain ⟨error, herror, -⟩ := hraises hnot
        cases herror
      refine ⟨fun before domain after error hsplit herror _ => ?_, fun _ htolerant domain hdomain addresses haddresses => ?_⟩
      · obtain ⟨addresses, haddresses, -⟩ := hworks domain (by rw [hsplit]; simp)
        rw [herror] at haddresses
        cases haddresses
      · obtain ⟨addresses', haddresses', -, hserved⟩ := hworks domain hdomain
        rw [haddresses] at haddresses'
        cases haddresses'
        rw [if_neg (by simp [htolerant])] at hserved
        exact hserved
    · intro hexpected
      refine ⟨fun _ => rfl, fun hnot => absurd (fun domain hdomain => ?_) hnot⟩
      exact works_of_not_refused (hall domain hdomain) fun htolerant => hexpected.served hall htolerant domain hdomain
  · -- the check of `domain` is the first that raises
    rw [run_failed henabled hwritten hremoved hgather]
    have hnot : ¬∀ d ∈ before ++ domain :: after, RouteWorks Γ policy (route d) :=
      fun hworks => not_refused_of_works (hworks domain (by simp)) hrefused
    have hcontained : RoutesExpected Γ policy route (before ++ domain :: after) ↔ ExpectedError error := by
      constructor
      · intro hexpected
        rcases hcause with hresolver | ⟨-, hpreflight⟩
        · exact hexpected.contained before domain after error rfl hresolver hbefore
        · exact Or.inl hpreflight
      · intro hcontained
        refine ⟨fun before' domain' after' error' hsplit herror hearlier => ?_, fun hall => absurd hrefused (hall domain (by simp))⟩
        have hresolver' : RouteRefused Γ policy (route domain') := by
          intro addresses haddresses
          rw [herror] at haddresses
          cases haddresses
        obtain ⟨rfl, rfl⟩ := first_unique hsplit hbefore hrefused hearlier hresolver'
        rcases hcause with hresolver | ⟨⟨addresses, haddresses⟩, -⟩
        · rw [herror] at hresolver
          cases hresolver
          exact hcontained
        · rw [herror] at haddresses
          cases haddresses
    rw [hcontained]
    split
    next htimeout => exact ⟨fun _ => Or.inr htimeout, fun _ => ⟨fun hworks => absurd hworks hnot, fun _ => ⟨_, rfl, rfl⟩⟩⟩
    next hother =>
      constructor
      · rintro ⟨-, hraises⟩
        obtain ⟨error', herror', hpreflight⟩ := hraises hnot
        cases herror'
        exact Or.inl hpreflight
      · intro hcontained
        exact ⟨fun hworks => absurd hworks hnot, fun _ => ⟨error, rfl, hcontained.resolve_right hother⟩⟩

end PreflightRouteAux

open PreflightRouteAux in
/-- The enabled preflight of any number of domains passes exactly when every route works, and raises `PreflightError` otherwise, if and
only if the synthetic file is written and removed and the routes are as it expects. -/
theorem preflight_exact_iff (Γ : Ctx) (policy : SelfCheckConfig) (henabled : policy.enabled = true) (file : SyntheticFile)
    (route : String → DomainRoute) {domains completion : List String} (horder : completion.Perm domains) :
    PreflightExact Γ policy route domains (run Γ policy file route completion) ↔
      file.written = .ok () ∧ file.removed = .ok () ∧ RoutesExpected Γ policy route completion := by
  cases hwritten : file.written with
  | error x =>
    have hrun : run Γ policy file route completion = .error x := by
      unfold run
      rw [henabled, hwritten]
      rfl
    rw [hrun]
    exact ⟨fun h => absurd h (not_exact_of_file (file.written_error x hwritten)), fun h => nomatch h.1⟩
  | ok =>
    cases hremoved : file.removed with
    | error x =>
      have hrun : run Γ policy file route completion = .error x := by
        unfold run
        rw [henabled, hwritten, hremoved]
        rfl
      have hos : x.isOneOf [.osError, .challengeFileError] = true := by
        unfold Exc.isOneOf
        rw [List.any_cons, file.removed_error x hremoved, Bool.true_or]
      rw [hrun]
      exact ⟨fun h => absurd h (not_exact_of_file hos), fun h => nomatch h.2.1⟩
    | ok => exact (exact_iff_expected horder henabled hwritten hremoved).trans ⟨fun h => ⟨rfl, rfl, h⟩, fun h => h.2.2⟩

namespace PreflightRouteSample

/-- The synthetic file is written and removed. -/
def file : SyntheticFile := ⟨.ok (), .ok (), nofun, nofun⟩

/-- The route of a name that resolution answers with an error, or with one address that answers so. -/
def route (records : Except Exc (List String)) (answer : Except Exc Unit) (_ : String) : DomainRoute :=
  routeOf (resolveAllAddresses records) fun _ => answer

/-- The policy that tolerates addresses that fail. -/
def tolerant : SelfCheckConfig := { requireAllAddresses := false }

def nameError : Exc := .of .osError "Name or service not known"

/-- A context where every text is an address. -/
def permissive : Ctx := { Sample.ctx with isIpAddress := fun _ => true }

/-- Two domains: one of the addresses of the first fails, and the address of the second serves the token. -/
def twoRoutes (domain : String) : DomainRoute :=
  routeOf (resolveAllAddresses (.ok (if domain = "a.example" then ["192.0.2.1", "192.0.2.2"] else ["192.0.2.3"]))) fun address =>
    if address = "192.0.2.1" then .error (preflightError "refused") else .ok ()

end PreflightRouteSample

open PreflightRouteSample in
/-- A failed name resolution comes out as `OSError`, and under the tolerant policy a domain passes none of whose addresses served the
token. -/
theorem preflight_exact_false :
    (run Sample.addressed {} file (route (.error nameError) (.ok ())) ["a.example"] = .error nameError ∧
      ¬PreflightExact Sample.addressed {} (route (.error nameError) (.ok ())) ["a.example"] (.error nameError)) ∧
    run Sample.addressed tolerant file (route (.ok ["192.0.2.1"]) (.error (preflightError "refused"))) ["a.example"] = .ok () ∧
      ¬PreflightExact Sample.addressed tolerant (route (.ok ["192.0.2.1"]) (.error (preflightError "refused"))) ["a.example"]
        (.ok ()) := by
  have haddresses : route (.ok ["192.0.2.1"]) (.error (preflightError "refused")) "a.example" =
      .ok [("192.0.2.1", .error (preflightError "refused"))] := by decide +kernel
  refine ⟨⟨by decide +kernel, ?_⟩, by decide +kernel, ?_⟩
  · rintro ⟨-, hraises⟩
    obtain ⟨error, herror, hpreflight⟩ := hraises fun hworks => by
      obtain ⟨_, hroute, -⟩ := hworks "a.example" (by simp)
      cases hroute
    cases herror
    exact absurd hpreflight (by decide)
  · rintro ⟨-, hraises⟩
    obtain ⟨error, herror, -⟩ := hraises fun hworks => by
      obtain ⟨_, hroute, -, hserved⟩ := hworks "a.example" (by simp)
      rw [haddresses] at hroute
      cases hroute
      simp [tolerant] at hserved
    cases herror

open PreflightRouteSample in
/-- Of two domains, the second is checked first, and under the tolerant policy the first passes although one of its addresses
fails. -/
theorem preflight_exact_iff_sample :
    run permissive tolerant file twoRoutes ["b.example", "a.example"] = .ok () ∧
      PreflightExact permissive tolerant twoRoutes ["a.example", "b.example"] (.ok ()) := by
  have hrun : run permissive tolerant file twoRoutes ["b.example", "a.example"] = .ok () := by decide +kernel
  have hfirst : twoRoutes "a.example" = .ok [("192.0.2.1", .error (preflightError "refused")), ("192.0.2.2", .ok ())] := by
    decide +kernel
  have hsecond : twoRoutes "b.example" = .ok [("192.0.2.3", .ok ())] := by decide +kernel
  have hroutes : ∀ domain ∈ ["b.example", "a.example"], ∃ addresses, twoRoutes domain = .ok addresses ∧
      ∃ address ∈ addresses, address.2 = .ok () := by
    intro domain hdomain
    rcases List.mem_pair.1 hdomain with rfl | rfl
    · exact ⟨_, hsecond, _, List.mem_singleton_self _, rfl⟩
    · exact ⟨_, hfirst, _, List.mem_cons_of_mem _ (List.mem_singleton_self _), rfl⟩
  have hexact := preflight_exact_iff permissive tolerant rfl file twoRoutes (List.Perm.swap "a.example" "b.example" [])
  rw [hrun] at hexact
  refine ⟨hrun, hexact.2 ⟨rfl, rfl, ?_, ?_⟩⟩
  · intro before domain after error hsplit herror
    obtain ⟨addresses, haddresses, -⟩ := hroutes domain (by rw [hsplit]; simp)
    rw [herror] at haddresses
    cases haddresses
  · intro _ _ domain hdomain addresses haddresses
    obtain ⟨addresses', haddresses', hserved⟩ := hroutes domain hdomain
    rw [haddresses] at haddresses'
    cases haddresses'
    exact hserved

end OciAcmePublisher
