import OciAcmePublisher.OciClients
import OciAcmePublisher.Theorems.VersionListing

/-!
# The OCI API behind the SDK clients

What a request answers and leaves, with one world for all certificates: the responses are truthful, a listing comes in pages, and
any request may fail before or after it has taken effect.
-/

namespace OciAcmePublisher

open Effects

/-- The pages a listing is served in: the first, and each other one under its token. -/
structure Paging (r : Resource) where
  first : List OciCertificateVersion
  rest : List (String × List OciCertificateVersion)
  distinct : (rest.map Prod.fst).Nodup
  named : "" ∉ rest.map Prod.fst
  listed : (first ++ rest.flatMap Prod.snd).Perm (r.versions.rows.map r.shown)

/-- The token of the page that comes next. -/
def nextOf : List (String × List OciCertificateVersion) → SdkValue
  | [] => .none
  | page :: _ => .str page.1

/-- The response is the page, and says which one comes next. -/
inductive Paging.Serves {r : Resource} (p : Paging r) : Option String → SdkResponse → Prop where
  | first {response : SdkResponse} : PageOf response p.first → response.nextToken = nextOf p.rest → Serves p none response
  | next {response : SdkResponse} {token : String} {versions : List OciCertificateVersion}
      {before after : List (String × List OciCertificateVersion)} : p.rest = before ++ (token, versions) :: after →
        PageOf response versions → response.nextToken = nextOf after → Serves p (some token) response

/-- The data of a public bundle. -/
structure BundleOf (data : SdkValue) (bundle : OciPublicBundle) : Prop where
  certificatePem : data.getattr "certificate_pem" .none = .str bundle.certificatePem
  certChainPem : data.getattr "cert_chain_pem" .none = .str bundle.certChainPem
  number : data.getattr "version_number" .none = .int bundle.versionNumber
  name : data.getattr "version_name" .none = bundle.versionName.elim .none .str
  stages : ∃ names : List String, data.getattr "stages" .none = .list (names.map .str) ∧ bundle.stages = names.map Stage.ofName

/-- The version holds what is imported. -/
def Version.imports (v : Version) (config : ImportingConfig) : Prop :=
  v.certificatePem = config.certificatePem ∧ v.certChainPem = config.certChainPem ∧ v.name = some config.versionName

/-- What a request that takes effect answers and leaves. -/
def World.Answers (paging : (r : Resource) → Paging r) (w : World) : SdkOp → SdkResponse → World → Prop
  | .getCertificate ocid _, response, w' =>
    w' = w ∧ ∃ r, w.certificates ocid = some r ∧ response.data.getattr "id" .none = .str ocid ∧
      (response.data.getattr "current_version" .none).getattr "version_number" .none = .int r.current
  | .listCertificateVersions ocid _ page, response, w' =>
    w' = w ∧ ∃ r, w.certificates ocid = some r ∧ (paging r).Serves page response
  | .getCertificateVersion ocid number _, response, w' =>
    w' = w ∧ ∃ r, w.certificates ocid = some r ∧ ∃ v ∈ r.versions.rows, v.number = number ∧ ItemOf response.data (r.shown v)
  | .createCertificate _ _ config _, response, w' =>
    ∃ ocid v, response.data.getattr "id" .none = .str ocid ∧ w.certificates ocid = none ∧ Version.imports v config ∧
      w' = w.mutate ocid (.created v) (.created ocid)
  | .updateCertificate ocid ⟨some config, none⟩ _ _, _, w' =>
    config.stage = some "PENDING" ∧ ∃ r r' v, w.certificates ocid = some r ∧ Version.imports v config ∧ r.upload v = some r' ∧
      w' = w.mutate ocid r' (.uploaded ocid v.number)
  | .updateCertificate ocid ⟨none, some number⟩ _ _, _, w' =>
    ∃ r r', w.certificates ocid = some r ∧ r.promote number = some r' ∧ w' = w.mutate ocid r' (.promoted ocid number)
  | .updateCertificate .., _, _ => False
  | .scheduleCertificateVersionDeletion ocid number time _ _, _, w' =>
    ∃ r, w.certificates ocid = some r ∧
      w' = w.mutate ocid (r.scheduleDeletion number time) (.deletionScheduled ocid number)
  | .getCertificateBundle ocid _ bundleType number, response, w' =>
    w' = w ∧ bundleType = "CERTIFICATE_CONTENT_PUBLIC_ONLY" ∧ ∃ r, w.certificates ocid = some r ∧
      ∃ v ∈ r.versions.rows, v.number = number.getD r.current ∧ BundleOf response.data (r.bundle v)

/-- The exceptions a request may raise. -/
abbrev SdkFaults := SdkOp → Exc → Prop

/-- The environment of the adapters: the requests are answered by the API, what the adapters do besides by the service. -/
def sdkService (Γ : Ctx) (faults : Faults) (sdkFaults : SdkFaults) (paging : (r : Resource) → Paging r) : Env adapting Exc World
  | w, .inl op, .ok response, w' => w.Answers paging op response w'
  | w, .inl op, .error x, w' => sdkFaults op x ∧ (w' = w ∨ ∃ response, w.Answers paging op response w')
  | w, .inr op, answer, w' => service Γ faults w op answer w'

/-- The exceptions of an operation whose adapter makes requests: theirs, those of the pauses, and those of the adapter itself. -/
def adapterFaults (faults : Faults) (sdkFaults : SdkFaults) (op : Op) (x : Exc) : Prop :=
  match op with
  | .getCertificate .. | .listVersions .. | .getVersion .. | .createImportedCertificate .. | .uploadPendingVersion .. |
    .promoteCurrent .. | .scheduleVersionDeletion .. | .getPublicBundle .. =>
    (∃ request, sdkFaults request x) ∨ (∃ pause, pauses pause = true ∧ faults pause x) ∨
      x.isOneOf [.ociCertificateError, .unicodeError, .runtimeError] = true
  | op => faults op x

end OciAcmePublisher
