import OciAcmePublisher.Theorems.ChallengeDescriptors

/-!
# Readiness and challenges over every file system

Only the components below the webroot base are opened inside the `try` of `_open_challenge_directory`. Where the base itself cannot be
opened its `OSError` is not translated, and the two callers that rely on the translation let it through.
-/

namespace OciAcmePublisher

open Effects HostRoutingAux ServedChallengeAux

/-- A file system at rest: paths that are refused always are, with an `OSError` that is no timeout, and what is open can be read. -/
def atRest (refused : List String → Prop) : FileFaults where
  refuses := refused
  fails := refused
  reading := False
  error x := x.cls = .osError

/-- The challenge directory of the webroot can be opened by the confined traversal. -/
def DirectoryOpens (reader : ChallengeFileReader) (tree : Entries) (refused : List String → Prop) (webrootId : String) : Prop :=
  CanOpen (fun path => ¬refused path) [] (reader.webrootBase :: challengeComponents webrootId) tree

/-- The webroot base can be opened: it is a directory, no link, and not refused. -/
def BaseOpens (reader : ChallengeFileReader) (tree : Entries) (refused : List String → Prop) : Prop :=
  CanOpen (fun path => ¬refused path) [] [reader.webrootBase] tree

/-- Readiness is true for the webroots that all can be opened, and false otherwise. -/
def ReadyExactly (reader : ChallengeFileReader) (tree : Entries) (refused : List String → Prop) (webroots : List String)
    (o : Outcome Exc Bool) : Prop :=
  ∃ answer, o = .returned answer ∧ (answer = true ↔ ∀ webrootId ∈ webroots, DirectoryOpens reader tree refused webrootId)

/-- The readiness endpoint answers 200 for the webroots that all can be opened, and 503 otherwise. -/
def ReadinessExactly (reader : ChallengeFileReader) (tree : Entries) (refused : List String → Prop) (webroots : List String)
    (o : Outcome Exc HttpResponse) : Prop :=
  ∃ response, o = .returned response ∧ (response.status = 200 ∨ response.status = 503) ∧
    (response.status = 200 ↔ ∀ webrootId ∈ webroots, DirectoryOpens reader tree refused webrootId)

/-- The challenge endpoint answers with the file, or 404. -/
def ChallengeAnswered (reader : ChallengeFileReader) (tree : Entries) (webrootId token : String)
    (o : Outcome Exc HttpResponse) : Prop :=
  o = .returned notFound ∨ ∃ content, o = .returned ⟨200, content⟩ ∧ ReadConfined reader tree webrootId token content

namespace FailClosedAux

open ChallengeDescriptorsAux

variable {Γ : Ctx} {config : AppConfig} {ownerUid : Nat} {tree : Entries} {refused : List String → Prop}
  {reader : ChallengeFileReader} {webroots : List String} {w₀ w : List OpenFile}

theorem isInstance_osError {x : Exc} (h : x.cls = .osError) : x.isInstance .osError = true := by
  unfold Exc.isInstance
  rw [h]
  decide

theorem not_timeout {x : Exc} (h : x.cls = .osError) : x.isInstance .timeoutError = false := by
  unfold Exc.isInstance
  rw [h]
  decide

theorem base_of_directory {webrootId : String} (h : DirectoryOpens reader tree refused webrootId) :
    BaseOpens reader tree refused := by
  obtain ⟨hallowed, inner, hlookup, -⟩ := h
  exact ⟨hallowed, inner, hlookup, trivial⟩

theorem not_caught {x : Exc} (h : x.cls = .osError) : ¬x.isOneOf [.challengeFileError, .timeoutError] = true := by
  unfold Exc.isOneOf Exc.isInstance
  rw [h]
  decide

/-- Readiness is exact, or the base cannot be opened and its error comes through. -/
theorem ready_exact :
    Runs tree (atRest refused) (Holding w₀ []) (ready reader webroots)
      (fun answer _ => (answer = true ↔ ∀ webrootId ∈ webroots, DirectoryOpens reader tree refused webrootId) ∧
        (webroots = [] ∨ BaseOpens reader tree refused))
      (fun x _ => x.cls = .osError ∧ ¬(webroots = [] ∨ BaseOpens reader tree refused)) := by
  refine (ready_runs (fun _ => isInstance_osError) webroots).conseq (fun _ h => h) ?_ ?_ fun _ h => h
  · rintro answer w ⟨-, htrue, hfalse⟩
    cases answer with
    | true =>
      refine ⟨⟨fun _ => htrue rfl, fun _ => rfl⟩, ?_⟩
      cases webroots with
      | nil => exact Or.inl rfl
      | cons webrootId rest => exact Or.inr (base_of_directory (htrue rfl webrootId List.mem_cons_self))
    | false =>
      obtain ⟨hbase, webrootId, hmem, hcannot⟩ := hfalse rfl
      exact ⟨⟨nofun, fun hall => absurd (hall webrootId hmem) hcannot⟩, Or.inr hbase⟩
  · rintro x w ⟨-, hx, hne, hbase⟩
    exact ⟨hx, fun h => h.elim hne hbase⟩

/-- The middleware turns an `OSError` that is no timeout into a 500. -/
theorem middleware_runs {handler : FileAction HttpResponse} {Q : HttpResponse → Prop} {φ : Prop}
    (h : Runs tree (atRest refused) (Holding w₀ []) handler (fun response _ => Q response) (fun x _ => x.cls = .osError ∧ φ)) :
    Runs tree (atRest refused) (Holding w₀ []) (errorMiddleware handler)
      (fun response _ => Q response ∨ (response = ⟨500, []⟩ ∧ φ)) (fun _ _ => False) := by
  refine Triple.handle (h.post fun _ _ h => Or.inl h) fun x => ?_
  rintro w ⟨hx, hφ⟩
  have hserver : x.isOneOf [.osError, .runtimeError, .valueError] = true := by
    unfold Exc.isOneOf
    rw [List.any_cons, isInstance_osError hx, Bool.true_or]
  rw [not_timeout hx]
  simp only [Bool.false_eq_true, if_false, hserver, if_true]
  refine Triple.ret (P := fun _ => True) (fun _ _ => ?_) (fun _ _ => trivial) w trivial
  exact Or.inr ⟨rfl, hφ⟩

theorem readiness_exact :
    Runs tree (atRest refused) (Holding w₀ []) (readiness config ownerUid)
      (fun response _ => ((response.status = 200 ∨ response.status = 503) ∧ (response.status = 200 ↔
          ∀ webrootId ∈ requiredWebroots config, DirectoryOpens (challengeReader config ownerUid) tree refused webrootId)) ∧
        (requiredWebroots config = [] ∨ BaseOpens (challengeReader config ownerUid) tree refused))
      (fun x _ => x.cls = .osError ∧
        ¬(requiredWebroots config = [] ∨ BaseOpens (challengeReader config ownerUid) tree refused)) := by
  refine Triple.bind ready_exact fun answer => Triple.ret ?_ fun _ _ => trivial
  rintro w ⟨hexact, hopens⟩
  refine ⟨⟨?_, ?_⟩, hopens⟩
  · cases answer with
    | true => exact Or.inl rfl
    | false => exact Or.inr rfl
  · rw [← hexact]
    cases answer <;> simp

theorem challenge_exact {headers : List RawHeader} {token webrootId : String} (htoken : matchesToken token = true)
    (hhost : routeHost Γ config headers = .ok webrootId) :
    Runs tree (atRest refused) (Holding w₀ []) (challenge Γ config ownerUid headers token)
      (fun response _ => (response = notFound ∨ ∃ content, response = ⟨200, content⟩ ∧
          ReadConfined (challengeReader config ownerUid) tree webrootId token content) ∧
        BaseOpens (challengeReader config ownerUid) tree refused)
      (fun x _ => x.cls = .osError ∧ ¬BaseOpens (challengeReader config ownerUid) tree refused) := by
  unfold challenge
  rw [htoken, hhost]
  simp only [Bool.not_true, Bool.false_eq_true, if_false]
  refine Triple.bind (Triple.attempt (challengeContent_runs (fun _ => isInstance_osError) webrootId token)
    (fun _ _ _ => trivial) fun _ _ _ => trivial) fun outcome => ?_
  cases outcome with
  | ok content => exact Triple.ret (fun w h => ⟨Or.inr ⟨content, rfl, h.1⟩, h.2.1⟩) fun _ _ => trivial
  | error x =>
    simp only
    split
    next hcaught =>
      refine Triple.ret (fun w h => ?_) fun _ _ => trivial
      rcases h.2 with ⟨-, hopens⟩ | ⟨hos, -⟩
      · exact ⟨Or.inl rfl, hopens⟩
      · exact absurd hcaught (not_caught hos)
    next hother =>
      refine Triple.raise (fun w h => ?_) fun _ _ => trivial
      rcases h.2 with ⟨hchallenge, -⟩ | ⟨hos, hclosed⟩
      · refine absurd ?_ hother
        unfold Exc.isOneOf
        rw [List.any_cons, hchallenge, Bool.true_or]
      · exact ⟨hos, hclosed.resolve_left id⟩

end FailClosedAux

open FailClosedAux ChallengeDescriptorsAux in
/-- The responder fails closed over a file system exactly if the webroot base can be opened: readiness is true for the webroots that
all can be opened, without an exception and as 200 or 503, where there are any to open; and a challenge for a valid token and an
allowlisted host is answered with the file or 404. -/
theorem responder_fails_closed_iff (Γ : Ctx) (config : AppConfig) (ownerUid : Nat) (tree : Entries)
    (refused : List String → Prop) (w₀ : List OpenFile) :
    (∀ o w, Exec (fileSystem tree (atRest refused)) (ready (challengeReader config ownerUid) (requiredWebroots config)) w₀ o w →
        o ≠ .crashed → (ReadyExactly (challengeReader config ownerUid) tree refused (requiredWebroots config) o ↔
          requiredWebroots config = [] ∨ BaseOpens (challengeReader config ownerUid) tree refused)) ∧
      (∀ o w, Exec (fileSystem tree (atRest refused)) (errorMiddleware (readiness config ownerUid)) w₀ o w →
        o ≠ .crashed → (ReadinessExactly (challengeReader config ownerUid) tree refused (requiredWebroots config) o ↔
          requiredWebroots config = [] ∨ BaseOpens (challengeReader config ownerUid) tree refused)) ∧
      ∀ headers token webrootId, matchesToken token = true → routeHost Γ config headers = .ok webrootId →
        ∀ o w, Exec (fileSystem tree (atRest refused)) (errorMiddleware (challenge Γ config ownerUid headers token)) w₀ o w →
          o ≠ .crashed → (ChallengeAnswered (challengeReader config ownerUid) tree webrootId token o ↔
            BaseOpens (challengeReader config ownerUid) tree refused) := by
  refine ⟨fun o w h ho => ?_, fun o w h ho => ?_, fun headers token webrootId htoken hhost o w h ho => ?_⟩
  · obtain ⟨t, hrecorded⟩ := h.record []
    have hpost := ready_exact _ (holding_begin w₀) _ _ hrecorded
    cases o with
    | crashed => exact absurd rfl ho
    | raised x => exact ⟨fun ⟨answer, hanswer, _⟩ => (nomatch hanswer), fun hopens => absurd hopens hpost.2⟩
    | returned answer => exact ⟨fun _ => hpost.2, fun _ => ⟨answer, rfl, hpost.1⟩⟩
  · obtain ⟨t, hrecorded⟩ := h.record []
    have hpost := middleware_runs readiness_exact _ (holding_begin w₀) _ _ hrecorded
    cases o with
    | crashed => exact absurd rfl ho
    | raised x => exact hpost.elim
    | returned response =>
      rcases hpost with ⟨hexact, hopens⟩ | ⟨rfl, hclosed⟩
      · exact ⟨fun _ => hopens, fun _ => ⟨response, rfl, hexact⟩⟩
      · refine ⟨?_, fun hopens => absurd hopens hclosed⟩
        rintro ⟨response, hresponse, hstatus | hstatus, -⟩ <;> cases hresponse <;> cases hstatus
  · obtain ⟨t, hrecorded⟩ := h.record []
    have hpost := middleware_runs (challenge_exact htoken hhost) _ (holding_begin w₀) _ _ hrecorded
    cases o with
    | crashed => exact absurd rfl ho
    | raised x => exact hpost.elim
    | returned response =>
      rcases hpost with ⟨hanswer, hopens⟩ | ⟨rfl, hclosed⟩
      · refine ⟨fun _ => hopens, fun _ => ?_⟩
        rcases hanswer with rfl | ⟨content, rfl, hconfined⟩
        · exact Or.inl rfl
        · exact Or.inr ⟨content, rfl, hconfined⟩
      · refine ⟨?_, fun hopens => absurd hopens hclosed⟩
        rintro (hresponse | ⟨content, hresponse, -⟩) <;> cases hresponse

namespace FailClosedSample

open ChallengeDescriptorsSample

/-- The sample configuration over a tree where nothing is refused. -/
theorem serve_atRest (tree : Entries) : (serve tree).Allowed (fileSystem tree (atRest fun _ => False)) :=
  serve_allowed tree (fun _ => id) rfl

def readinessRun (tree : Entries) : Outcome Exc HttpResponse × List OpenFile :=
  (errorMiddleware (readiness servedConfig 990)).runFor (serve tree) 40 []

def challengeRun (tree : Entries) : Outcome Exc HttpResponse × List OpenFile :=
  (errorMiddleware (challenge routingCtx servedConfig 990 sampleHeaders token)).runFor (serve tree) 40 []

end FailClosedSample

/-- Without the webroot base readiness raises, and readiness and challenge are answered with 500. -/
theorem responder_fails_closed_false :
    Exec (fileSystem [] (atRest fun _ => False)) (ready (challengeReader servedConfig 990) (requiredWebroots servedConfig)) []
        (.raised ChallengeDescriptorsSample.missing) [] ∧
      Exec (fileSystem [] (atRest fun _ => False)) (errorMiddleware (readiness servedConfig 990)) [] (.returned ⟨500, []⟩) [] ∧
      matchesToken ChallengeDescriptorsSample.token = true ∧ routeHost routingCtx servedConfig sampleHeaders = .ok "web" ∧
      Exec (fileSystem [] (atRest fun _ => False))
        (errorMiddleware (challenge routingCtx servedConfig 990 sampleHeaders ChallengeDescriptorsSample.token)) []
        (.returned ⟨500, []⟩) [] := by
  have hserve := FailClosedSample.serve_atRest []
  refine ⟨?_, ?_, by decide +kernel, by decide +kernel, ?_⟩
  · exact exec_of_runFor (n := 20) hserve rfl
  · exact exec_of_runFor (n := 20) hserve rfl
  · exact exec_of_runFor (n := 20) hserve rfl

/-- With the challenge directory of the sample webroot readiness is 200, and the challenge file is served. -/
theorem responder_fails_closed_iff_sample :
    (FailClosedSample.readinessRun (sampleTree ChallengeDescriptorsSample.token [66])).1 =
        .returned ⟨200, asciiBody "ready\n"⟩ ∧
      BaseOpens (challengeReader servedConfig 990) (sampleTree ChallengeDescriptorsSample.token [66]) (fun _ => False) ∧
      ChallengeAnswered (challengeReader servedConfig 990) (sampleTree ChallengeDescriptorsSample.token [66]) "web"
        ChallengeDescriptorsSample.token (.returned ⟨200, [66]⟩) := by
  have hserve := FailClosedSample.serve_atRest (sampleTree ChallengeDescriptorsSample.token [66])
  have hready : (FailClosedSample.readinessRun (sampleTree ChallengeDescriptorsSample.token [66])).1 =
      .returned ⟨200, asciiBody "ready\n"⟩ := by decide +kernel
  have hserved : (FailClosedSample.challengeRun (sampleTree ChallengeDescriptorsSample.token [66])).1 = .returned ⟨200, [66]⟩ := by
    decide +kernel
  have hopens : BaseOpens (challengeReader servedConfig 990) (sampleTree ChallengeDescriptorsSample.token [66])
      (fun _ => False) := ⟨id, _, rfl, trivial⟩
  obtain ⟨-, -, hchallenge⟩ := responder_fails_closed_iff routingCtx servedConfig 990
    (sampleTree ChallengeDescriptorsSample.token [66]) (fun _ => False) []
  refine ⟨hready, hopens, (hchallenge sampleHeaders _ "web" (by decide +kernel) (by decide +kernel) _ _
    (exec_of_runFor hserve hserved) nofun).2 hopens⟩

end OciAcmePublisher
