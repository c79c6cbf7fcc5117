import OciAcmePublisher.AcmeService
import OciAcmePublisher.Theorems.HostRouting

/-!
# Served challenges

When the challenge file that `_write_challenge` wrote is what the responder answers with. The writer follows symbolic links and
takes any token of 1 to 256 characters and any content; the responder follows no link, wants at least 20 characters and bounds
the file. A walk lemma relates the two traversals: after the write the reader reaches the writer's directory exactly if no
component of the path was a link.
-/

namespace OciAcmePublisher
namespace ServedChallengeAux

open HostRoutingAux

theorem lookup_put_self (entries : Entries) (name : String) (node : PathEntry) :
    (entries.put name node).lookup name = some node := by
  unfold Entries.put
  rw [List.lookup_cons_self]

/-- No component of the path that exists is a symbolic link or a file. -/
def Plain : List String → Entries → Prop
  | [], _ => True
  | name :: rest, entries =>
    match entries.lookup name with
    | none => True
    | some (.dir inner) => Plain rest inner
    | some _ => False

/-- In an empty directory every path is plain. -/
theorem plain_nil (path : List String) : Plain path [] := by
  cases path with
  | nil => trivial
  | cons name rest => trivial

/-- After an update below a path, the reader that follows no link finds the updated directory if the path is plain, and none
otherwise. -/
theorem openDirectory_writeInto {update : Entries → Except Exc Entries} {path : List String} {entries entries' : Entries}
    (h : writeInto update path entries = .ok entries') :
    (Plain path entries → ∃ before after, update before = .ok after ∧ openDirectory path entries' = some after) ∧
      (¬Plain path entries → openDirectory path entries' = none) := by
  induction path generalizing entries entries' with
  | nil => exact ⟨fun _ => ⟨entries, entries', h, rfl⟩, fun hno => absurd trivial hno⟩
  | cons name rest ih =>
    have hstep : ∀ {inner : Entries} {wrap : Entries → PathEntry}, (writeInto update rest inner).map
        (fun inner' => entries.put name (wrap inner')) = .ok entries' →
        ∃ inner', writeInto update rest inner = .ok inner' ∧ entries' = entries.put name (wrap inner') := by
      intro inner wrap hmap
      cases hinner : writeInto update rest inner with
      | error x =>
        rw [hinner] at hmap
        cases hmap
      | ok inner' =>
        rw [hinner] at hmap
        cases hmap
        exact ⟨inner', rfl, rfl⟩
    unfold writeInto at h
    unfold Plain openDirectory
    cases hname : entries.lookup name with
    | none =>
      simp only [hname] at h
      obtain ⟨inner', hinner, rfl⟩ := hstep h
      rw [lookup_put_self]
      exact ⟨fun _ => (ih hinner).1 (plain_nil rest), fun hno => absurd trivial hno⟩
    | some node =>
      cases node with
      | file owner mode content =>
        simp only [hname] at h
        cases h
      | dir inner =>
        simp only [hname] at h
        obtain ⟨inner', hinner, rfl⟩ := hstep h
        rw [lookup_put_self]
        exact ih hinner
      | link directory =>
        cases directory with
        | none =>
          simp only [hname] at h
          cases h
        | some inner =>
          simp only [hname] at h
          obtain ⟨inner', hinner, rfl⟩ := hstep h
          rw [lookup_put_self]
          exact ⟨fun hno => absurd hno id, fun _ => rfl⟩

/-- The directory after the replacement holds the file under the token. -/
theorem replaceFile_ok {writer : Writer} {token : String} {content : Bytes} {before after : Entries}
    (h : replaceFile writer token content before = .ok after) :
    ∃ owner, writer.owner = some owner ∧
      after.lookup token = some (.file owner writer.mode (content.take writer.taken)) := by
  unfold replaceFile at h
  simp only at h
  split at h
  · cases h
  · split at h
    · cases h
    · rename_i owner howner
      refine ⟨owner, howner, ?_⟩
      split at h
      · cases h
      · cases h
        exact lookup_put_self _ _ _

/-- A file created with 0o640 is writable by its owner alone, whatever the umask. -/
theorem mode_safe (writer : Writer) : writer.mode &&& 0o022 = 0 := by
  unfold Writer.mode
  have hzero : 0o640 &&& 0o022 = 0 := by decide
  rw [Nat.and_assoc, Nat.and_comm _ 0o022, ← Nat.and_assoc, hzero, Nat.zero_and]

/-- The reader serves a file of the expected owner that the writer created if it is not too large. -/
theorem readToken_ok (reader : ChallengeFileReader) {entries : Entries} {token : String} {writer : Writer} {content : Bytes}
    (h : entries.lookup token = some (.file reader.expectedOwnerUid writer.mode content)) :
    (content.length ≤ reader.maxFileBytes → reader.readToken entries token = .ok content) ∧
      (¬content.length ≤ reader.maxFileBytes → reader.readToken entries token =
        .error (.of .challengeFileError "challenge file exceeds maximum size")) := by
  unfold ChallengeFileReader.readToken
  simp only [h, mode_safe, ne_eq, not_true_eq_false, if_false]
  constructor
  · intro hle
    have hnot : ¬reader.maxFileBytes < content.length := by omega
    have htake : content.take (reader.maxFileBytes + 1) = content := List.take_of_length_le (by omega)
    simp [hnot, htake, pure, Except.pure]
  · intro hlong
    have hlt : reader.maxFileBytes < content.length := by omega
    simp [hlt, bind, Except.bind, throw, throwThe, MonadExceptOf.throw]

/-- The components of the path that `issue` builds. -/
def issuePath (config : AppConfig) (certificate : CertificateConfig) : List String :=
  config.http01.webrootBase :: challengeComponents certificate.webrootId

/-- The reader opens the challenge directory of a webroot by the same components, or fails with one of its two errors. -/
theorem openChallengeDirectory_eq (reader : ChallengeFileReader) (webrootId : String) (tree : Entries) :
    (∀ entries, reader.openChallengeDirectory webrootId tree = .ok entries ↔
      openDirectory (reader.webrootBase :: challengeComponents webrootId) tree = some entries) := by
  intro entries
  unfold ChallengeFileReader.openChallengeDirectory
  cases hbase : tree.lookup reader.webrootBase with
  | none => simp [openDirectory, hbase]
  | some node =>
    cases node with
    | file owner mode content => simp [openDirectory, hbase]
    | link directory => simp [openDirectory, hbase]
    | dir inner =>
      simp only [openDirectory, hbase]
      cases hrest : openDirectory (challengeComponents webrootId) inner with
      | none => simp
      | some found => simp

/-- A domain that was normalized normalizes to itself, unless it reads as an address. -/
theorem normalize_again {Γ : Ctx} (libraries : NamingLibraries Γ)
    (hagain : ∀ text encoded, Γ.idnaEncode text = some encoded → Γ.idnaEncode encoded = some encoded)
    {value domain host : String} (h : normalizeDomain Γ value = .ok domain) :
    normalizeDomain Γ domain = .ok host ↔ host = domain ∧ Γ.isIpAddress domain = false := by
  obtain ⟨hnonempty, hend⟩ := normalized_end h
  obtain ⟨-, -, hencode, hlength, hlabels⟩ := normalizeDomain_ok.1 h
  have hldh := libraries.encode _ _ hencode
  have hsame : candidate Γ domain = domain := by
    have hdots : domain.toList.reverse.dropWhile (· == '.') = domain.toList.reverse := by
      cases hrev : domain.toList.reverse with
      | nil => rfl
      | cons c rest =>
        have hc : c ≠ '.' := by
          rintro rfl
          apply hend rest.reverse
          rw [← List.reverse_reverse domain.toList, hrev, List.reverse_cons]
        rw [List.dropWhile_cons, if_neg (by simpa using hc)]
    have hstrip : strip domain = domain := by
      rw [← String.ofList_toList (s := domain)]
      exact strip_clean fun c hc => (hostChar_clean (Or.inl (hldh c hc))).2.1
    have hrstrip : rstripDots domain = domain := by
      unfold rstripDots
      rw [hdots, List.reverse_reverse, String.ofList_toList]
    have hlower : domain.toList.map Char.toLower = domain.toList :=
      (List.map_congr_left fun c hc => lower_of_ldh (hldh c hc)).trans (List.map_id _)
    unfold candidate
    rw [hstrip, hrstrip, libraries.lower domain fun c hc => (hostChar_clean (Or.inl (hldh c hc))).1, hlower,
      String.ofList_toList]
  have hplain : ¬(domain.toList = [] ∨ '_' ∈ domain.toList ∨ '*' ∈ domain.toList) := by
    rintro (hnil | hunderscore | hstar)
    · exact hnonempty hnil
    · exact absurd (hldh '_' hunderscore) (by decide)
    · exact absurd (hldh '*' hstar) (by decide)
  rw [normalizeDomain_ok, hsame, hagain _ _ hencode]
  constructor
  · rintro ⟨-, hip, heq, -⟩
    exact ⟨(Option.some.inj heq).symm, hip⟩
  · rintro ⟨rfl, hip⟩
    exact ⟨hplain, hip, rfl, hlength, hlabels⟩

/-- The text of a normalized domain as the value of a Host header. -/
theorem names_domain {Γ : Ctx} (libraries : NamingLibraries Γ) {domain value host : String} {headers : List RawHeader}
    {raw : Bytes} (hnormalized : normalizeDomain Γ value = .ok domain) (hraw : hostValues headers = [raw])
    (htext : decodeAscii raw = some domain) :
    Names Γ (some intMaxStrDigits) headers host ↔ normalizeDomain Γ domain = .ok host := by
  have hldh := libraries.encode _ _ (encode_of_normalizeDomain hnormalized)
  have hcolon : ':' ∉ domain.toList := fun hc => (hostChar_clean (Or.inl (hldh _ hc))).2.2.2 rfl
  constructor
  · rintro ⟨raw', text, hraw', htext', hnames⟩
    rw [hraw] at hraw'
    cases hraw'
    rw [htext] at htext'
    cases htext'
    obtain ⟨named, hwith, hnormal⟩ := hnames.host
    rw [((withPort_plain hcolon).1 hwith).2, String.ofList_toList] at hnormal
    exact hnormal
  · intro hnormal
    refine ⟨raw, domain, hraw, htext, ?_, domain.toList, ?_, ?_⟩
    · intro c hc
      have hclean := hostChar_clean (Or.inl (hldh c hc))
      exact ⟨hclean.2.1, hclean.2.2.1⟩
    · exact .plain _ (normalized_end hnormalized).1 hcolon
    · rw [String.ofList_toList]
      exact hnormal

/-- The header of a normalized domain of a certificate routes to its webroot, or nowhere if the domain reads as an address. -/
theorem routeHost_domain {Γ : Ctx} (libraries : NamingLibraries Γ)
    (hagain : ∀ text encoded, Γ.idnaEncode text = some encoded → Γ.idnaEncode encoded = some encoded)
    {config : AppConfig} (hconsistent : config.Consistent) {certificate : CertificateConfig}
    (hin : certificate ∈ config.certificates) {domain value : String} (hd : domain ∈ certificate.domains)
    (hnormalized : normalizeDomain Γ value = .ok domain) {headers : List RawHeader} {raw : Bytes}
    (hraw : hostValues headers = [raw]) (htext : decodeAscii raw = some domain) (webrootId : String) :
    routeHost Γ config headers = .ok webrootId ↔ webrootId = certificate.webrootId ∧ Γ.isIpAddress domain = false := by
  rw [routeHost_ok hconsistent]
  constructor
  · rintro ⟨other, ho, hroot, named, hnamed, hnames⟩
    obtain ⟨rfl, hip⟩ := (normalize_again libraries hagain hnormalized).1 ((names_domain libraries hnormalized hraw htext).1 hnames)
    rw [← hroot, hconsistent.owner_unique ho hin hnamed hd]
    exact ⟨rfl, hip⟩
  · rintro ⟨rfl, hip⟩
    have hnormal := (normalize_again libraries hagain hnormalized).2 ⟨rfl, hip⟩
    exact ⟨certificate, hin, rfl, domain, hd, (names_domain libraries hnormalized hraw htext).2 hnormal⟩

theorem matchesToken_iff {token : String} (h : NativeAcmeService.isToken token = true) : matchesToken token = true ↔ 20 ≤ token.length := by
  unfold NativeAcmeService.isToken at h
  unfold matchesToken
  simp only [Bool.and_eq_true, decide_eq_true_eq] at h ⊢
  constructor
  · intro hm
    exact hm.1.1
  · intro hlength
    exact ⟨⟨hlength, h.1.2⟩, h.2⟩

/-- The file that `_write_challenge` left is read back exactly if its path is plain and it is not too large. -/
theorem read_written {config : AppConfig} {certificate : CertificateConfig} {writer : Writer} {owner : Nat} {token : String}
    {content : Bytes} {tree tree' : Entries} (howner : writer.owner = some owner)
    (hwrite : writeChallenge writer (issuePath config certificate) token content tree = .ok tree') :
    (challengeReader config owner).read certificate.webrootId token tree' = .ok (content.take writer.taken) ↔
      Plain (issuePath config certificate) tree ∧
        (content.take writer.taken).length ≤ config.http01.responder.maxChallengeFileBytes := by
  have hwalk := openDirectory_writeInto hwrite
  have hopen := openChallengeDirectory_eq (challengeReader config owner) certificate.webrootId tree'
  unfold ChallengeFileReader.read
  by_cases hplain : Plain (issuePath config certificate) tree
  · obtain ⟨before, after, hreplace, hafter⟩ := hwalk.1 hplain
    obtain ⟨owner', howner', hfile⟩ := replaceFile_ok hreplace
    rw [howner] at howner'
    cases howner'
    have hread := readToken_ok (challengeReader config owner) hfile
    rw [(hopen after).2 hafter]
    by_cases hsize : (content.take writer.taken).length ≤ config.http01.responder.maxChallengeFileBytes
    · constructor
      · intro _
        exact ⟨hplain, hsize⟩
      · intro _
        exact hread.1 hsize
    · constructor
      · intro hok
        have herror : (challengeReader config owner).readToken after token = .ok (content.take writer.taken) := hok
        rw [hread.2 hsize] at herror
        cases herror
      · intro h
        exact absurd h.2 hsize
  · constructor
    · intro hok
      cases hentries : (challengeReader config owner).openChallengeDirectory certificate.webrootId tree' with
      | error x =>
        rw [hentries] at hok
        cases hok
      | ok entries =>
        have hnone := hwalk.2 hplain
        have hsome := (hopen entries).1 hentries
        have hpath : openDirectory (issuePath config certificate) tree' = some entries := hsome
        rw [hnone] at hpath
        cases hpath
    · intro h
      exact absurd h.1 hplain

/-- The superuser writes the challenge of the sample. -/
def sampleWriter : Writer where
  euid := 0
  umask := 0o022
  publisherUid := some 990
  random := "0123456789abcdef01234567"
  taken := 4096

/-- What the write leaves below an empty directory. -/
def sampleTree (token : String) (content : Bytes) : Entries := [
  ("/webroot", .dir [("web", .dir [(".well-known", .dir [("acme-challenge", .dir [(token,
    .file 990 sampleWriter.mode content)])])])])]

/-- A request for the sample domain. -/
def sampleHeaders : List RawHeader := [(hostKey, [97, 46, 101, 120, 97, 109, 112, 108, 101])]

def servedConfig : AppConfig where
  __ := routedConfig
  http01 := (Sample.config routedCertificate).http01

theorem servedConfig_validates : servedConfig.Validates where
  certificates := routedConfig_validates.certificates
  crossFields := by decide +kernel

theorem routingCtx_again : ∀ text encoded, routingCtx.idnaEncode text = some encoded →
    routingCtx.idnaEncode encoded = some encoded := by
  intro text encoded h
  simp only [routingCtx] at h ⊢
  split at h
  · rename_i hall
    cases h
    rw [if_pos hall]
  · cases h

end ServedChallengeAux

open HostRoutingAux ServedChallengeAux

/-- What `_write_challenge` wrote for a domain is what the responder serves for it exactly if the token is at least 20 characters
long, the file is within the configured size, the domain does not read as an address and no component of the path is a symbolic
link. -/
theorem challenge_served_iff (Γ : Ctx) (libraries : NamingLibraries Γ)
    (hagain : ∀ text encoded, Γ.idnaEncode text = some encoded → Γ.idnaEncode encoded = some encoded)
    (config : AppConfig) (hvalid : config.Validates) (certificate : CertificateConfig)
    (hin : certificate ∈ config.certificates) (domain value : String) (hd : domain ∈ certificate.domains)
    (hnormalized : normalizeDomain Γ value = .ok domain) (token : String) (htoken : NativeAcmeService.isToken token = true)
    (content : Bytes) (writer : Writer) (owner : Nat)
    (howner : writer.owner = some owner) (tree tree' : Entries)
    (hwrite : writeChallenge writer (issuePath config certificate) token content tree = .ok tree')
    (headers : List RawHeader) (raw : Bytes) (hraw : hostValues headers = [raw]) (htext : decodeAscii raw = some domain) :
    challengeHandler Γ config owner tree' headers token = .ok ⟨200, content.take writer.taken⟩ ↔
      20 ≤ token.length ∧ (content.take writer.taken).length ≤ config.http01.responder.maxChallengeFileBytes ∧
        Γ.isIpAddress domain = false ∧ Plain (issuePath config certificate) tree := by
  have hconsistent := config.crossFieldInvariants_ok.1 hvalid.crossFields
  have hroute := routeHost_domain libraries hagain hconsistent hin hd hnormalized hraw htext
  have hread := read_written howner hwrite
  have hmissing : notFound ≠ ⟨200, content.take writer.taken⟩ := by
    intro heq
    have hstatus := congrArg HttpResponse.status heq
    cases hstatus
  unfold challengeHandler
  constructor
  · intro h
    cases hm : matchesToken token with
    | false =>
      rw [hm] at h
      exact absurd (Except.ok.inj h) hmissing
    | true =>
      rw [hm] at h
      cases hhost : routeHost Γ config headers with
      | error x =>
        simp only [hhost, Bool.not_true, Bool.false_eq_true, if_false] at h
        split at h
        · exact absurd (Except.ok.inj h) hmissing
        · cases h
      | ok webrootId =>
        obtain ⟨rfl, hip⟩ := (hroute webrootId).1 hhost
        simp only [hhost, Bool.not_true, Bool.false_eq_true, if_false] at h
        cases hfile : (challengeReader config owner).read certificate.webrootId token tree' with
        | error x =>
          simp only [hfile] at h
          split at h
          · exact absurd (Except.ok.inj h) hmissing
          · cases h
        | ok bytes =>
          simp only [hfile] at h
          have hbytes := congrArg HttpResponse.body (Except.ok.inj h)
          rw [hfile, show bytes = content.take writer.taken from hbytes] at hread
          obtain ⟨hplain, hsize⟩ := hread.1 rfl
          exact ⟨(matchesToken_iff htoken).1 hm, hsize, hip, hplain⟩
  · rintro ⟨hlength, hsize, hip, hplain⟩
    rw [(matchesToken_iff htoken).2 hlength, (hroute certificate.webrootId).2 ⟨rfl, hip⟩]
    simp only [hread.2 ⟨hplain, hsize⟩]
    rfl

/-- A token of 20 characters is served. -/
theorem challenge_served_iff_sample :
    challengeHandler routingCtx servedConfig 990 (sampleTree "AAAAAAAAAAAAAAAAAAAA" [66]) sampleHeaders
      "AAAAAAAAAAAAAAAAAAAA" = .ok ⟨200, [66]⟩ := by
  have hnormal : normalizeDomain routingCtx "a.example" = .ok "a.example" := by decide +kernel
  have hwrite : writeChallenge sampleWriter (issuePath servedConfig routedCertificate) "AAAAAAAAAAAAAAAAAAAA" [66] [] =
      .ok (sampleTree "AAAAAAAAAAAAAAAAAAAA" [66]) := by
    rfl
  exact (challenge_served_iff routingCtx routingCtx_libraries routingCtx_again servedConfig servedConfig_validates
    routedCertificate (List.mem_singleton.2 rfl) "a.example" "a.example" (List.mem_singleton.2 rfl) hnormal
    "AAAAAAAAAAAAAAAAAAAA" (by decide +kernel) [66] sampleWriter 990 rfl [] _ hwrite sampleHeaders _ rfl
    (by decide +kernel)).2 ⟨by decide +kernel, by decide +kernel, by decide +kernel, trivial⟩

/-- A token of three characters, which `issue` accepts and writes, is answered with 404. -/
theorem challenge_served_false :
    servedConfig.Validates ∧ normalizeDomain routingCtx "a.example" = .ok "a.example" ∧
      NativeAcmeService.isToken "abc" = true ∧ sampleWriter.owner = some 990 ∧
      writeChallenge sampleWriter (issuePath servedConfig routedCertificate) "abc" [66] [] = .ok (sampleTree "abc" [66]) ∧
      challengeHandler routingCtx servedConfig 990 (sampleTree "abc" [66]) sampleHeaders "abc" = .ok notFound := by
  have hnormal : normalizeDomain routingCtx "a.example" = .ok "a.example" := by decide +kernel
  have hshort : matchesToken "abc" = false := by decide +kernel
  refine ⟨servedConfig_validates, hnormal, by decide +kernel, rfl, rfl, ?_⟩
  unfold challengeHandler
  rw [hshort]
  rfl

end OciAcmePublisher
