import Mathlib.Data.Finset.Card
import Mathlib.Data.List.Forall2
import OciAcmePublisher.OciCertificates

/-!
# Version listing is complete and ends

A server answers every page request, as it likes for every history of requests. Where its tokens are drawn from a finite set, the
listing ends, and it returns what following the tokens meets.
-/

namespace OciAcmePublisher

open Effects

section Server

variable (server : List ClientOp → SdkResponse)

/-- The answers of a server to the requests so far, with a record of the requests. -/
def serve : Answers sdkClient Exc (List ClientOp)
  | requests, .listCertificateVersions certificateId opcRequestId page =>
    (.ok (server (requests ++ [.listCertificateVersions certificateId opcRequestId page])),
      requests ++ [.listCertificateVersions certificateId opcRequestId page])
  | requests, .pause attempt retryAfter => (.ok (), requests ++ [.pause attempt retryAfter])

/-- What the server answers to requests made one after the other, after those before. -/
def answersTo (before : List ClientOp) : List ClientOp → List SdkResponse
  | [] => []
  | request :: rest => server (before ++ [request]) :: answersTo (before ++ [request]) rest

/-- The token of the next page. -/
def SdkResponse.nextToken (response : SdkResponse) : SdkValue := response.header "opc-next-page"

/-- An item with all its fields of the types the adapter asks for, and the version it stands for. -/
structure ItemOf (item : SdkValue) (version : OciCertificateVersion) : Prop where
  number : item.getattr "version_number" .none = .int version.versionNumber
  name : item.getattr "version_name" .none = version.versionName.elim .none .str
  stages : ∃ names : List String, item.getattr "stages" (.object []) = .list (names.map .str) ∧
    version.stages = names.map Stage.ofName
  created : item.getattr "time_created" .none = version.timeCreated.elim .none .datetime
  deletion : item.getattr "time_of_deletion" .none = version.timeOfDeletion.elim .none .datetime
  etag : version.etag = none

/-- A well-formed page, and the versions its items stand for. -/
def PageOf (response : SdkResponse) (versions : List OciCertificateVersion) : Prop :=
  ∃ items, response.data.getattr "items" response.data = .list items ∧ List.Forall₂ ItemOf items versions

/-- Following the tokens from a page on, after the pages before: the pages met, each answering with the token of the one after it and
the last with none, and the versions they list. No page comes twice. -/
structure Listing (request : Option String → ClientOp) (before : List (Option String)) (page : Option String)
    (pages : List (Option String)) (versions : List OciCertificateVersion) : Prop where
  first : pages.head? = some page
  followed : (answersTo server (before.map request) (pages.map request)).map SdkResponse.nextToken =
    pages.tail.map (fun page => page.elim .none .str) ++ [.none]
  tokens : some "" ∉ pages.tail
  distinct : (before ++ pages).Nodup
  listed : ∃ parts, List.Forall₂ PageOf (answersTo server (before.map request) (pages.map request)) parts ∧
    versions = parts.flatten

end Server

namespace VersionListingAux

theorem mapM_ok_iff {α β : Type} {f : α → Except Exc β} {l : List α} {r : List β} :
    l.mapM f = .ok r ↔ List.Forall₂ (fun a b => f a = .ok b) l r := by
  induction l generalizing r with
  | nil =>
    rw [List.mapM_nil, List.forall₂_nil_left_iff]
    exact ⟨fun h => (Except.ok.inj h).symm, fun h => congrArg _ h.symm⟩
  | cons a rest ih =>
    rw [List.mapM_cons]
    simp only [bind_eq_ok_iff, ih]
    constructor
    · rintro ⟨b, hb, bs, hbs, hr⟩
      cases hr
      exact .cons hb hbs
    · rintro (_ | ⟨hb, hbs⟩)
      exact ⟨_, hb, _, hbs, rfl⟩

theorem asStages_iff {message : String} {value : SdkValue} {stages : List Stage} :
    value.asStages message = .ok stages ↔
      ∃ names : List String, value = .list (names.map .str) ∧ stages = names.map Stage.ofName := by
  cases value with
  | list values =>
    unfold SdkValue.asStages
    rw [mapM_ok_iff]
    simp only [SdkValue.asStage_iff, SdkValue.list.injEq]
    constructor
    · intro h
      induction h with
      | nil => exact ⟨[], rfl, rfl⟩
      | cons hname _ ih =>
        obtain ⟨name, rfl, rfl⟩ := hname
        obtain ⟨names, rfl, rfl⟩ := ih
        exact ⟨name :: names, rfl, rfl⟩
    · rintro ⟨names, rfl, rfl⟩
      rw [List.forall₂_map_left_iff, List.forall₂_map_right_iff]
      exact List.forall₂_same.2 fun name _ => ⟨name, rfl, rfl⟩
  | _ => simp [SdkValue.asStages]

theorem versionFromData_iff {item : SdkValue} {version : OciCertificateVersion} :
    versionFromData item = .ok version ↔ ItemOf item version := by
  unfold versionFromData
  simp only [bind_eq_ok_iff, SdkValue.asInt_iff, SdkValue.asOptionalText_iff, SdkValue.asOptionalTime_iff, asStages_iff]
  constructor
  · rintro ⟨number, hnumber, name, hname, stages, hstages, created, hcreated, deletion, hdeletion, etag, hetag, hversion⟩
    cases hversion
    refine ⟨hnumber, hname, hstages, hcreated, hdeletion, ?_⟩
    cases etag with
    | none => rfl
    | some etag => cases hetag
  · rintro ⟨hnumber, hname, hstages, hcreated, hdeletion, hetag⟩
    refine ⟨_, hnumber, _, hname, _, hstages, _, hcreated, _, hdeletion, none, rfl, ?_⟩
    rw [← hetag]
    rfl

theorem pageVersions_iff {response : SdkResponse} {versions : List OciCertificateVersion} :
    pageVersions response = .ok versions ↔ PageOf response versions := by
  unfold pageVersions PageOf
  cases response.data.getattr "items" response.data with
  | list items =>
    simp only [mapM_ok_iff, versionFromData_iff]
    exact ⟨fun h => ⟨items, rfl, h⟩, fun ⟨_, hitems, h⟩ => SdkValue.list.inj hitems ▸ h⟩
  | _ => simp

theorem nextPage_none_iff {response : SdkResponse} {seenPages : List String} :
    nextPage seenPages response = .ok none ↔ response.nextToken = .none := by
  unfold nextPage SdkResponse.nextToken
  cases response.header "opc-next-page" with
  | str token =>
    simp only [reduceCtorEq, iff_false]
    split <;> nofun
  | _ => simp

theorem nextPage_some_iff {response : SdkResponse} {seenPages : List String} {token : String} :
    nextPage seenPages response = .ok (some token) ↔
      response.nextToken = .str token ∧ token ≠ "" ∧ token ∉ seenPages := by
  unfold nextPage SdkResponse.nextToken
  cases response.header "opc-next-page" with
  | str text =>
    simp only [SdkValue.str.injEq]
    split
    next hold =>
      refine ⟨nofun, ?_⟩
      rintro ⟨rfl, hempty, hnew⟩
      exact absurd hold (by tauto)
    next hnew =>
      rw [not_or] at hnew
      constructor
      · intro h
        cases h
        exact ⟨rfl, hnew⟩
      · rintro ⟨rfl, -⟩
        rfl
  | _ => simp

/-- The computation raises nothing but `OciCertificateError`. -/
abbrev Refuses {α : Type} (e : Except Exc α) : Prop := RaisesOnly .ociCertificateError e

theorem refuses_error {α : Type} (message : String) : Refuses (.error (ociCertificateError message) : Except Exc α) :=
  raisesOnly_error rfl

theorem refuses_versionFromData (item : SdkValue) : Refuses (versionFromData item) := by
  have hint (message : String) (value : SdkValue) : Refuses (value.asInt message) := by
    cases value <;> first | exact raisesOnly_ok _ | exact refuses_error _
  have htext (message : String) (value : SdkValue) : Refuses (value.asOptionalText message) := by
    cases value <;> first | exact raisesOnly_ok _ | exact refuses_error _
  have htime (message : String) (value : SdkValue) : Refuses (value.asOptionalTime message) := by
    cases value <;> first | exact raisesOnly_ok _ | exact refuses_error _
  have hstage (message : String) (value : SdkValue) : Refuses (value.asStage message) := by
    cases value <;> first | exact raisesOnly_ok _ | exact refuses_error _
  have hstages (message : String) (value : SdkValue) : Refuses (value.asStages message) := by
    cases value <;> first | exact raisesOnly_mapM (hstage message) _ | exact refuses_error _
  unfold versionFromData
  refine (hint _ _).bind fun _ => (htext _ _).bind fun _ => (hstages _ _).bind fun _ => ?_
  exact (htime _ _).bind fun _ => (htime _ _).bind fun _ => (htext _ _).bind fun _ => raisesOnly_ok _

theorem refuses_pageVersions (response : SdkResponse) : Refuses (pageVersions response) := by
  unfold pageVersions
  split
  · exact raisesOnly_mapM refuses_versionFromData _
  · exact refuses_error _

theorem refuses_nextPage (seenPages : List String) (response : SdkResponse) : Refuses (nextPage seenPages response) := by
  unfold nextPage
  split
  · exact raisesOnly_ok _
  · split
    · exact refuses_error _
    · exact raisesOnly_ok _
  · exact refuses_error _

/-! ### One page and the pages after it -/

variable {server : List ClientOp → SdkResponse} {request : Option String → ClientOp} {before : List (Option String)}
  {page : Option String}

/-- A listing is that of its first page and, where that has a token, of the pages from there on. -/
theorem listing_iff (hfirst : none ∈ before ++ [page]) (hdistinct : (before ++ [page]).Nodup) {response : SdkResponse}
    (hresponse : server (before.map request ++ [request page]) = response) {pages : List (Option String)}
    {versions : List OciCertificateVersion} :
    Listing server request before page pages versions ↔
      ∃ listed, PageOf response listed ∧
        ((response.nextToken = .none ∧ pages = [page] ∧ versions = listed) ∨
          ∃ token rest later, response.nextToken = .str token ∧ token ≠ "" ∧ some token ∉ before ++ [page] ∧
            pages = page :: rest ∧ versions = listed ++ later ∧
            Listing server request (before ++ [page]) (some token) rest later) := by
  have hbefore : (before ++ [page]).map request = before.map request ++ [request page] := by simp
  constructor
  · rintro ⟨hhead, hfollowed, htokens, hnodup, parts, hparts, rfl⟩
    cases pages with
    | nil => cases hhead
    | cons first rest =>
      cases hhead
      rw [List.map_cons, answersTo, hresponse] at hparts hfollowed
      rw [List.map_cons, List.tail_cons] at hfollowed
      rw [List.tail_cons] at htokens
      cases hparts with
      | @cons _ listed _ parts hlisted hparts =>
        refine ⟨listed, hlisted, ?_⟩
        cases rest with
        | nil =>
          cases hparts
          exact Or.inl ⟨(List.cons.inj hfollowed).1, rfl, by simp⟩
        | cons next rest =>
          obtain ⟨hnext, hfollowed⟩ := List.cons.inj hfollowed
          have hsplit : before ++ page :: next :: rest = (before ++ [page]) ++ next :: rest := by simp
          rw [hsplit] at hnodup
          have hnew : next ∉ before ++ [page] := fun hold => (List.nodup_append.1 hnodup).2.2 _ hold _ (by simp) rfl
          cases next with
          | none => exact absurd hfirst hnew
          | some token =>
            refine Or.inr ⟨token, _, _, hnext, fun hempty => htokens (by simp [hempty]), hnew, rfl, rfl, rfl, ?_, ?_, hnodup, ?_⟩
            · rw [hbefore]
              exact hfollowed
            · exact fun hempty => htokens (List.mem_cons_of_mem _ hempty)
            · rw [hbefore]
              exact ⟨parts, hparts, rfl⟩
  · rintro ⟨listed, hlisted, ⟨htoken, rfl, rfl⟩ | ⟨token, rest, later, htoken, hempty, hnew, rfl, rfl, hrest⟩⟩
    · refine ⟨rfl, ?_, by simp, hdistinct, [versions], ?_, by simp⟩
      · rw [List.map_cons, answersTo, hresponse]
        simpa [answersTo] using htoken
      · rw [List.map_cons, answersTo, hresponse]
        exact .cons hlisted .nil
    · obtain ⟨hhead, hfollowed, htokens, hnodup, parts, hparts, rfl⟩ := hrest
      cases rest with
      | nil => cases hhead
      | cons next rest =>
        cases hhead
        rw [hbefore] at hfollowed hparts
        refine ⟨rfl, ?_, ?_, by simpa using hnodup, listed :: parts, ?_, rfl⟩
        · rw [List.map_cons, answersTo, hresponse, List.map_cons, hfollowed, htoken]
          rfl
        · rw [List.tail_cons]
          intro hin
          rcases List.mem_cons.1 hin with heq | hin
          · exact hempty (Option.some.inj heq).symm
          · exact htokens hin
        · rw [List.map_cons, answersTo, hresponse]
          exact .cons hlisted hparts

/-- How a run of the loop ends that starts at a page: it asked for the pages of the listing and returns what they list, or it raises
where there is no listing. -/
structure LoopEnds (server : List ClientOp → SdkResponse) (request : Option String → ClientOp) (T : Finset String)
    (before : List (Option String)) (page : Option String) (versions : List OciCertificateVersion) (seenPages : List String)
    (result : Outcome Exc (List OciCertificateVersion) × List ClientOp) (pages : List (Option String)) : Prop where
  requested : result.2 = (before ++ pages).map request
  bounded : pages.length ≤ (T \ seenPages.toFinset).card + 1
  distinct : (before ++ pages).Nodup
  outcome : (∃ listed, result.1 = .returned (versions ++ listed) ∧ ∀ pages' versions',
      Listing server request before page pages' versions' ↔ pages' = pages ∧ versions' = listed) ∨
    ∃ error, result.1 = .raised error ∧ error.isInstance .ociCertificateError = true ∧
      ∀ pages' versions', ¬Listing server request before page pages' versions'

theorem loop_ends (oci : OciConfig) (certificateId opcRequestId : String) {T : Finset String}
    (hrequest : request = .listCertificateVersions certificateId opcRequestId)
    (hdrawn : ∀ requests token, (server requests).nextToken = .str token → token ∈ T) (passes : Nat)
    (before : List (Option String)) (page : Option String) (versions : List OciCertificateVersion) (seenPages : List String)
    (hfirst : none ∈ before ++ [page]) (hdistinct : (before ++ [page]).Nodup)
    (hseen : ∀ token, token ∈ seenPages ↔ some token ∈ before ++ [page]) (hpasses : (T \ seenPages.toFinset).card < passes) :
    ∃ pages, LoopEnds server request T before page versions seenPages
      ((listVersions.loop oci certificateId opcRequestId passes versions page seenPages).eval (serve server) (before.map request))
      pages := by
  -- the measure is the number of tokens of `T` that are not seen
  induction passes generalizing before page versions seenPages with
  | zero => exact absurd hpasses (Nat.not_lt_zero _)
  | succ passes ih =>
    obtain ⟨response, hresponse⟩ : ∃ response, server (before.map request ++ [request page]) = response := ⟨_, rfl⟩
    have hiff := @listing_iff server request before page hfirst hdistinct response hresponse
    have hbefore : before.map request ++ [request page] = (before ++ [page]).map request := by simp
    have hanswer : serve server (before.map request) (.listCertificateVersions certificateId opcRequestId page) =
        (.ok response, (before ++ [page]).map request) := by
      rw [← hbefore, ← hresponse, hrequest]
      rfl
    have hread : (listVersions.loop oci certificateId opcRequestId (passes + 1) versions page seenPages).eval (serve server)
        (before.map request) = Program.eval (serve server) _ ((before ++ [page]).map request) :=
      Program.eval_bind_returned (retryReadSync_eval oci.maxReadAttempts_pos hanswer)
    rw [hread]
    cases hlisted : pageVersions response with
    | error x =>
      refine ⟨[page], rfl, by simp, hdistinct, Or.inr ⟨x, rfl, refuses_pageVersions response x hlisted, ?_⟩⟩
      intro pages' versions' hlisting
      obtain ⟨listed, hpage, -⟩ := hiff.1 hlisting
      rw [pageVersions_iff.2 hpage] at hlisted
      cases hlisted
    | ok listed =>
      have hsame : ∀ {listed'}, PageOf response listed' → listed' = listed := by
        intro listed' hpage
        rw [pageVersions_iff.2 hpage] at hlisted
        exact Except.ok.inj hlisted
      have hpage : PageOf response listed := pageVersions_iff.1 hlisted
      cases hnext : nextPage seenPages response with
      | error x =>
        refine ⟨[page], ?_, by simp, hdistinct, Or.inr ⟨x, ?_, refuses_nextPage seenPages response x hnext, ?_⟩⟩
        · simp only [ofExcept, Program.bind_eq, Program.ret_bind, Program.raise_bind]
          rfl
        · simp only [ofExcept, Program.bind_eq, Program.ret_bind, Program.raise_bind]
          rfl
        · intro pages' versions' hlisting
          obtain ⟨listed', -, ⟨htoken, -⟩ | ⟨token, rest, later, htoken, hempty, hnew, -⟩⟩ := hiff.1 hlisting
          · rw [nextPage_none_iff.2 htoken] at hnext
            cases hnext
          · rw [nextPage_some_iff.2 ⟨htoken, hempty, fun hold => hnew ((hseen token).1 hold)⟩] at hnext
            cases hnext
      | ok next =>
        cases next with
        | none =>
          refine ⟨[page], rfl, by simp, hdistinct, Or.inl ⟨listed, rfl, fun pages' versions' => ?_⟩⟩
          have htoken := nextPage_none_iff.1 hnext
          rw [hiff]
          constructor
          · rintro ⟨listed', hpage', ⟨-, rfl, rfl⟩ | ⟨token, rest, later, htoken', -⟩⟩
            · exact ⟨rfl, hsame hpage'⟩
            · rw [htoken] at htoken'
              cases htoken'
          · rintro ⟨rfl, rfl⟩
            exact ⟨_, hpage, Or.inl ⟨htoken, rfl, rfl⟩⟩
        | some token =>
          obtain ⟨htoken, hempty, hunseen⟩ := nextPage_some_iff.1 hnext
          have hnew : some token ∉ before ++ [page] := fun hold => hunseen ((hseen token).2 hold)
          have hin : token ∈ T \ seenPages.toFinset := by
            rw [Finset.mem_sdiff, List.mem_toFinset]
            exact ⟨hdrawn _ token (hresponse ▸ htoken), hunseen⟩
          -- one token fewer is not seen
          have hfewer : (T \ (token :: seenPages).toFinset).card + 1 = (T \ seenPages.toFinset).card := by
            rw [List.toFinset_cons, Finset.sdiff_insert, Finset.card_erase_add_one hin]
          have hdistinct' : ((before ++ [page]) ++ [some token]).Nodup := by
            refine List.nodup_append.2 ⟨hdistinct, by simp, ?_⟩
            rintro old hold _ hsome rfl
            exact hnew (List.mem_singleton.1 hsome ▸ hold)
          have hseen' : ∀ other, other ∈ token :: seenPages ↔ some other ∈ (before ++ [page]) ++ [some token] := by
            intro other
            rw [List.mem_cons, hseen other, @List.mem_append _ _ (before ++ [page]), List.mem_singleton, Option.some.injEq, or_comm]
          obtain ⟨rest, hrequested, hbounded, hnodup, houtcome⟩ := ih (before ++ [page]) (some token) (versions ++ listed)
            (token :: seenPages) (List.mem_append_left _ hfirst) hdistinct' hseen' (by omega)
          refine ⟨page :: rest, hrequested.trans (by simp), by rw [List.length_cons]; omega, by simpa using hnodup, ?_⟩
          rcases houtcome with ⟨later, hreturned, hrest⟩ | ⟨error, hraised, hclass, hnone⟩
          · refine Or.inl ⟨listed ++ later, hreturned.trans (by rw [List.append_assoc]), fun pages' versions' => ?_⟩
            rw [hiff]
            constructor
            · rintro ⟨listed', hpage', ⟨htoken', -⟩ | ⟨token', rest', later', htoken', -, -, rfl, rfl, hlisting⟩⟩
              · rw [htoken] at htoken'
                cases htoken'
              · rw [htoken] at htoken'
                cases htoken'
                obtain ⟨rfl, rfl⟩ := (hrest _ _).1 hlisting
                exact ⟨rfl, by rw [hsame hpage']⟩
            · rintro ⟨rfl, rfl⟩
              exact ⟨listed, hpage, Or.inr ⟨token, rest, later, htoken, hempty, hnew, rfl, rfl, (hrest _ _).2 ⟨rfl, rfl⟩⟩⟩
          · refine Or.inr ⟨error, hraised, hclass, fun pages' versions' hlisting => ?_⟩
            obtain ⟨listed', -, ⟨htoken', -⟩ | ⟨token', rest', later', htoken', -, -, -, -, hlater⟩⟩ := hiff.1 hlisting
            · rw [htoken] at htoken'
              cases htoken'
            · rw [htoken] at htoken'
              cases htoken'
              exact hnone _ _ hlater

end VersionListingAux

open VersionListingAux in
/-- Where the tokens a server answers with are drawn from `T`, the listing makes at most `|T| + 1` requests, no page twice. It returns
what following the tokens from the first page lists, having asked for the pages met, and raises `OciCertificateError` where following
them meets no last page. -/
theorem list_versions_complete (oci : OciConfig) (certificateId opcRequestId : String) (server : List ClientOp → SdkResponse)
    (T : Finset String) (hdrawn : ∀ requests token, (server requests).nextToken = .str token → token ∈ T) {passes : Nat}
    (hpasses : T.card < passes) :
    ∃ outcome requests, (listVersions oci passes certificateId opcRequestId).eval (serve server) [] = (outcome, requests) ∧
      requests.length ≤ T.card + 1 ∧ requests.Nodup ∧
      (∀ versions, outcome = .returned versions ↔
        ∃ pages, Listing server (.listCertificateVersions certificateId opcRequestId) [] none pages versions) ∧
      (∀ pages versions, Listing server (.listCertificateVersions certificateId opcRequestId) [] none pages versions →
        requests = pages.map (.listCertificateVersions certificateId opcRequestId)) ∧
      ((¬∃ pages versions, Listing server (.listCertificateVersions certificateId opcRequestId) [] none pages versions) →
        ∃ error, outcome = .raised error ∧ error.isInstance .ociCertificateError = true) := by
  obtain ⟨result, hresult⟩ : ∃ result,
      (listVersions oci passes certificateId opcRequestId).eval (serve server) [] = result := ⟨_, rfl⟩
  have hends : ∃ pages, LoopEnds server (.listCertificateVersions certificateId opcRequestId) T [] none [] [] result pages := by
    rw [← hresult]
    exact loop_ends oci certificateId opcRequestId rfl hdrawn passes [] none [] [] (by simp) (by simp) (by simp)
      (by simpa using hpasses)
  obtain ⟨pages, hrequested, hbounded, hdistinct, houtcome⟩ := hends
  refine ⟨result.1, result.2, hresult, ?_, ?_, ?_, ?_, ?_⟩
  · rw [hrequested, List.nil_append, List.length_map]
    simpa using hbounded
  · rw [hrequested]
    refine List.Nodup.map (fun page page' h => ?_) hdistinct
    cases h
    rfl
  · intro versions
    rcases houtcome with ⟨listed, hreturned, hlisting⟩ | ⟨error, hraised, -, hnone⟩
    · rw [hreturned]
      exact ⟨fun h => ⟨pages, (hlisting _ _).2 ⟨rfl, (Outcome.returned.inj h).symm⟩⟩,
        fun ⟨_, h⟩ => ((hlisting _ _).1 h).2 ▸ rfl⟩
    · rw [hraised]
      exact ⟨nofun, fun ⟨_, h⟩ => absurd h (hnone _ _)⟩
  · intro pages' versions' h
    rcases houtcome with ⟨listed, -, hlisting⟩ | ⟨error, -, -, hnone⟩
    · rw [((hlisting _ _).1 h).1]
      exact hrequested
    · exact absurd h (hnone _ _)
  · intro hmissing
    rcases houtcome with ⟨listed, -, hlisting⟩ | ⟨error, hraised, hclass, -⟩
    · exact absurd ⟨pages, listed, (hlisting _ _).2 ⟨rfl, rfl⟩⟩ hmissing
    · exact ⟨error, hraised, hclass⟩

namespace VersionListingSample

/-- An item of a page. -/
def item (number : Int) (stage : String) : SdkValue :=
  .object [("version_number", .int number), ("stages", .list [.str stage])]

/-- Two pages, whatever is asked for. -/
def twoPages (requests : List ClientOp) : SdkResponse :=
  if requests.length ≤ 1 then ⟨.object [("items", .list [item 1 "DEPRECATED"])], [("opc-next-page", .str "second-page")]⟩
  else ⟨.list [item 2 "CURRENT"], []⟩

theorem twoPages_drawn (requests : List ClientOp) (token : String) (h : (twoPages requests).nextToken = .str token) :
    token ∈ ({"second-page"} : Finset String) := by
  unfold twoPages at h
  split at h
  · cases h
    simp
  · cases h

/-- The requests of both pages. -/
def requests : List ClientOp :=
  [.listCertificateVersions "ocid" "request" none, .listCertificateVersions "ocid" "request" (some "second-page")]

end VersionListingSample

/-- The versions of two pages are listed with two requests. -/
theorem list_versions_complete_sample :
    (listVersions {} 2 "ocid" "request").eval (serve VersionListingSample.twoPages) [] =
        (.returned [⟨1, none, [.deprecated], none, none, none⟩, ⟨2, none, [.current], none, none, none⟩],
          VersionListingSample.requests) ∧
      ∃ pages, Listing VersionListingSample.twoPages (.listCertificateVersions "ocid" "request") [] none pages
        [⟨1, none, [.deprecated], none, none, none⟩, ⟨2, none, [.current], none, none, none⟩] := by
  have heval : (listVersions {} 2 "ocid" "request").eval (serve VersionListingSample.twoPages) [] =
      (.returned [⟨1, none, [.deprecated], none, none, none⟩, ⟨2, none, [.current], none, none, none⟩],
        VersionListingSample.requests) := by
    decide +kernel
  obtain ⟨outcome, requests, hrun, -, -, hreturned, -⟩ := list_versions_complete {} "ocid" "request" VersionListingSample.twoPages
    {"second-page"} VersionListingSample.twoPages_drawn (by decide : ({"second-page"} : Finset String).card < 2)
  rw [heval] at hrun
  cases hrun
  exact ⟨heval, (hreturned _).1 rfl⟩

end OciAcmePublisher
