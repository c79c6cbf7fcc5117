import Mathlib.Data.Fintype.EquivFin
import OciAcmePublisher.Http01Descriptors
import OciAcmePublisher.Theorems.ServedChallenge

/-!
# Confined reads and descriptors

What `ChallengeFileReader` holds open on its way: at most the directory it is in, the one it opens next and the file. On every way out
each of them was closed once, and what is read is what the path without links leads to.
-/

namespace OciAcmePublisher

open Effects

/-- What was performed on descriptors. -/
abbrev FileTrace := List (Event descriptors Exc)

/-- A descriptor is opened, or one that is held is closed. Closing any other spoils the account. -/
def heldStep : Option (List Nat) → Event descriptors Exc → Option (List Nat)
  | some fds, ⟨.openBase _, .ok fd⟩ | some fds, ⟨.openDirectory .., .ok fd⟩ | some fds, ⟨.openFile .., .ok fd⟩ =>
    some (fd :: fds)
  | some fds, ⟨.close fd, _⟩ => if fd ∈ fds then some (fds.erase fd) else none
  | fds, _ => fds

/-- The descriptors that were opened and not closed, none where one was closed that was not open. -/
def held (t : FileTrace) : Option (List Nat) := t.foldl heldStep (some [])

/-- The content is that of the challenge file, reached without links, within the safety policy. -/
structure ReadConfined (reader : ChallengeFileReader) (tree : Entries) (webrootId token : String) (content : Bytes) : Prop where
  reached : ∃ entries mode, openDirectory (reader.webrootBase :: challengeComponents webrootId) tree = some entries ∧
    entries.lookup token = some (.file reader.expectedOwnerUid mode content) ∧ mode &&& 0o022 = 0
  bounded : content.length ≤ reader.maxFileBytes

/-- Every directory of the path is there, is no link, and is one that may be opened. -/
def CanOpen (allowed : List String → Prop) (path : List String) : List String → Entries → Prop
  | [], _ => True
  | name :: rest, entries =>
    allowed (path ++ [name]) ∧ ∃ inner, entries.lookup name = some (.dir inner) ∧ CanOpen allowed (path ++ [name]) rest inner

namespace ChallengeDescriptorsAux

open ChallengeFileReader

variable {tree : Entries} {faults : FileFaults} {reader : ChallengeFileReader} {w₀ ds : List OpenFile} {d : OpenFile}
  {w w' : List OpenFile × FileTrace}

/-- The runs of an action over the tree, with a record. -/
abbrev Runs {α : Type} (tree : Entries) (faults : FileFaults) (P : List OpenFile × FileTrace → Prop) (p : FileAction α)
    (Q : α → List OpenFile × FileTrace → Prop) (E : Exc → List OpenFile × FileTrace → Prop) : Prop :=
  Triple (recording (fileSystem tree faults)) P p Q E fun _ => True

/-- The files that are open besides those of before, and on the account. -/
structure Holding (w₀ ds : List OpenFile) (w : List OpenFile × FileTrace) : Prop where
  table : w.1 = ds ++ w₀
  account : held w.2 = some (ds.map (·.fd))
  distinct : (ds.map (·.fd)).Nodup
  apart : ∀ d ∈ ds, ∀ e ∈ w₀, e.fd ≠ d.fd

theorem held_snoc (t : FileTrace) (e : Event descriptors Exc) : held (t ++ [e]) = heldStep (held t) e := by
  simp [held]

theorem Holding.mem_eq (h : Holding w₀ ds w) (hd : d ∈ ds) {e : OpenFile} (he : e ∈ w.1) (hfd : e.fd = d.fd) : e = d := by
  rw [h.table, List.mem_append] at he
  rcases he with he | he
  · exact List.inj_on_of_nodup_map h.distinct he hd hfd
  · exact absurd hfd (h.apart d hd e he)

theorem Holding.mem (h : Holding w₀ ds w) (hd : d ∈ ds) : d ∈ w.1 := by
  rw [h.table]
  exact List.mem_append_left _ hd

/-- A call that neither opens nor closes. -/
theorem Holding.same (h : Holding w₀ ds w) {e : Event descriptors Exc} (htable : w'.1 = w.1) (hlog : w'.2 = w.2 ++ [e])
    (he : ∀ fds, heldStep (some fds) e = some fds) : Holding w₀ ds w' := by
  refine ⟨htable.trans h.table, ?_, h.distinct, h.apart⟩
  rw [hlog, held_snoc, h.account, he]

/-- A call that opens a file. -/
theorem Holding.open (h : Holding w₀ ds w) {e : Event descriptors Exc} {fd : Nat} {path : List String} {node : PathEntry}
    (hopened : Opened w.1 fd path node w'.1) (hlog : w'.2 = w.2 ++ [e])
    (he : ∀ fds, heldStep (some fds) e = some (fd :: fds)) : Holding w₀ (⟨fd, path, node⟩ :: ds) w' := by
  obtain ⟨hfresh, htable⟩ := hopened
  refine ⟨by rw [htable, h.table]; rfl, ?_, ?_, ?_⟩
  · rw [hlog, held_snoc, h.account, he]
    rfl
  · rw [List.map_cons, List.nodup_cons]
    refine ⟨fun hmem => ?_, h.distinct⟩
    obtain ⟨d, hd, hfd⟩ := List.mem_map.1 hmem
    exact hfresh d (h.mem hd) hfd
  · refine List.forall_mem_cons.2 ⟨fun e he => hfresh e ?_, h.apart⟩
    rw [h.table]
    exact List.mem_append_right _ he

/-- The descriptor of a held file is closed. -/
theorem Holding.close (h : Holding w₀ ds w) (hd : d ∈ ds) (htable : w'.1 = w.1.filter (fun e => e.fd != d.fd))
    {r : Except Exc Unit} (hlog : w'.2 = w.2 ++ [⟨.close d.fd, r⟩]) :
    Holding w₀ (ds.filter (fun e => e.fd != d.fd)) w' := by
  have hfds : (ds.filter (fun e => e.fd != d.fd)).map (·.fd) = (ds.map (·.fd)).erase d.fd := by
    rw [h.distinct.erase_eq_filter, List.filter_map]
    rfl
  refine ⟨?_, ?_, ?_, fun e he => h.apart e (List.mem_of_mem_filter he)⟩
  · have hkeep : w₀.filter (fun e => e.fd != d.fd) = w₀ :=
      List.filter_eq_self.2 fun e he => by simpa using h.apart d hd e he
    rw [htable, h.table, List.filter_append, hkeep]
  · have hmem : d.fd ∈ ds.map (·.fd) := List.mem_map_of_mem hd
    rw [hlog, held_snoc, h.account, hfds]
    exact if_pos hmem
  · rw [hfds]
    exact h.distinct.erase _

theorem exists_fresh (w : List OpenFile) : ∃ fd, ∀ d ∈ w, d.fd ≠ fd := by
  obtain ⟨fd, hfd⟩ := Infinite.exists_notMem_finset (w.map (·.fd)).toFinset
  refine ⟨fd, fun d hd heq => hfd ?_⟩
  rw [List.mem_toFinset, ← heq]
  exact List.mem_map_of_mem hd

/-! ### One call -/

/-- Closing a held file. -/
theorem close_runs (hd : d ∈ ds) :
    Runs tree faults (Holding w₀ ds) (fileCall (.close d.fd))
      (fun _ => Holding w₀ (ds.filter (fun e => e.fd != d.fd))) (fun _ _ => False) := by
  refine Triple.perform (fun _ _ => trivial) ?_ ?_
  · rintro w _ w' h ⟨⟨hstep, -⟩, hlog⟩
    exact ⟨h.close hd hstep.2 hlog, trivial⟩
  · rintro w x w' h ⟨⟨-, -, hrefused⟩, -⟩
    exfalso
    rcases hrefused with ⟨path, hpath, -⟩ | ⟨hreads, -⟩ | hnone
    · exact hpath
    · cases hreads
    · exact hnone () _ ⟨⟨d, h.mem hd, rfl⟩, rfl⟩

/-- Closing the file opened last. -/
theorem close_head {fd : Nat} {path : List String} {node : PathEntry} (hfresh : ∀ e ∈ ds, e.fd ≠ fd) :
    Runs tree faults (Holding w₀ (⟨fd, path, node⟩ :: ds)) (fileCall (.close fd)) (fun _ => Holding w₀ ds)
      (fun _ _ => False) := by
  have honly : ((⟨fd, path, node⟩ : OpenFile) :: ds).filter (fun e => e.fd != fd) = ds := by
    rw [List.filter_cons_of_neg (by simp)]
    exact List.filter_eq_self.2 fun e he => by simpa using hfresh e he
  refine (close_runs (d := ⟨fd, path, node⟩) List.mem_cons_self).post fun _ w h => ?_
  rw [← honly]
  exact h

/-- The base is opened, or may not be. -/
theorem openBase_runs (base : String) :
    Runs tree faults (Holding w₀ []) (fileCall (.openBase base))
      (fun fd w => ∃ inner, tree.lookup base = some (.dir inner) ∧ ¬faults.refuses [base] ∧
        Holding w₀ [⟨fd, [base], .dir inner⟩] w)
      (fun x w => Holding w₀ [] w ∧ faults.error x ∧ (faults.fails [base] ∨ ∀ inner, tree.lookup base ≠ some (.dir inner))) := by
  refine Triple.perform (fun _ _ => trivial) ?_ ?_
  · rintro w fd w' h ⟨⟨⟨inner, hlookup, hopened⟩, hallowed⟩, hlog⟩
    exact ⟨⟨inner, hlookup, hallowed _ rfl, h.open hopened hlog fun _ => rfl⟩, trivial⟩
  · rintro w x w' h ⟨⟨htable, herror, hrefused⟩, hlog⟩
    refine ⟨⟨h.same htable hlog fun _ => rfl, herror, ?_⟩, trivial⟩
    rcases hrefused with ⟨path, rfl, hfails⟩ | ⟨hreads, -⟩ | hnone
    · exact Or.inl hfails
    · cases hreads
    · refine Or.inr fun inner hlookup => ?_
      obtain ⟨fd, hfresh⟩ := exists_fresh w.1
      exact hnone fd _ ⟨inner, hlookup, hfresh, rfl⟩

/-- A directory below a held one is opened, or may not be. -/
theorem openDirectory_runs {entries : Entries} (hd : d ∈ ds) (hnode : d.node = .dir entries) (name : String) :
    Runs tree faults (Holding w₀ ds) (fileCall (.openDirectory d.fd name))
      (fun fd w => ∃ inner, entries.lookup name = some (.dir inner) ∧ ¬faults.refuses (d.path ++ [name]) ∧
        Holding w₀ (⟨fd, d.path ++ [name], .dir inner⟩ :: ds) w)
      (fun x w => Holding w₀ ds w ∧ faults.error x ∧
        (faults.fails (d.path ++ [name]) ∨ ∀ inner, entries.lookup name ≠ some (.dir inner))) := by
  refine Triple.perform (fun _ _ => trivial) ?_ ?_
  · rintro w fd w' h ⟨⟨⟨e, he, hfd, entries', inner, hnode', hlookup, hopened⟩, hallowed⟩, hlog⟩
    obtain rfl := h.mem_eq hd he hfd
    rw [hnode] at hnode'
    cases hnode'
    exact ⟨⟨inner, hlookup, hallowed _ ⟨e, he, rfl, rfl⟩, h.open hopened hlog fun _ => rfl⟩, trivial⟩
  · rintro w x w' h ⟨⟨htable, herror, hrefused⟩, hlog⟩
    refine ⟨⟨h.same htable hlog fun _ => rfl, herror, ?_⟩, trivial⟩
    rcases hrefused with ⟨path, ⟨e, he, hfd, rfl⟩, hfails⟩ | ⟨hreads, -⟩ | hnone
    · rw [h.mem_eq hd he hfd] at hfails
      exact Or.inl hfails
    · cases hreads
    · refine Or.inr fun inner hlookup => ?_
      obtain ⟨fd, hfresh⟩ := exists_fresh w.1
      exact hnone fd _ ⟨d, h.mem hd, rfl, entries, inner, hnode, hlookup, hfresh, rfl⟩

/-- A file below a held directory is opened, or may not be. -/
theorem openFile_runs {entries : Entries} (hd : d ∈ ds) (hnode : d.node = .dir entries) (name : String) :
    Runs tree faults (Holding w₀ ds) (fileCall (.openFile d.fd name))
      (fun fd w => ∃ node, entries.lookup name = some node ∧ (∀ directory, node ≠ .link directory) ∧
        Holding w₀ (⟨fd, d.path ++ [name], node⟩ :: ds) w)
      (fun x w => Holding w₀ ds w ∧ faults.error x) := by
  refine Triple.perform (fun _ _ => trivial) ?_ ?_
  · rintro w fd w' h ⟨⟨⟨e, he, hfd, entries', node, hnode', hlookup, hlink, hopened⟩, -⟩, hlog⟩
    obtain rfl := h.mem_eq hd he hfd
    rw [hnode] at hnode'
    cases hnode'
    exact ⟨⟨node, hlookup, hlink, h.open hopened hlog fun _ => rfl⟩, trivial⟩
  · rintro w x w' h ⟨⟨htable, herror, -⟩, hlog⟩
    exact ⟨⟨h.same htable hlog fun _ => rfl, herror⟩, trivial⟩

/-- The status of a held file. -/
theorem fstat_runs (hd : d ∈ ds) {status : FileStatus} (hstatus : d.node.HasStatus status) :
    Runs tree faults (Holding w₀ ds) (fileCall (.fstat d.fd)) (fun status w => d.node.HasStatus status ∧ Holding w₀ ds w)
      (fun x w => Holding w₀ ds w ∧ faults.error x ∧ faults.reading) := by
  refine Triple.perform (fun _ _ => trivial) ?_ ?_
  · rintro w status w' h ⟨⟨⟨htable, e, he, hfd, hstatus⟩, -⟩, hlog⟩
    obtain rfl := h.mem_eq hd he hfd
    exact ⟨⟨hstatus, h.same htable hlog fun _ => rfl⟩, trivial⟩
  · rintro w x w' h ⟨⟨htable, herror, hrefused⟩, hlog⟩
    refine ⟨⟨h.same htable hlog fun _ => rfl, herror, ?_⟩, trivial⟩
    rcases hrefused with ⟨path, hpath, -⟩ | ⟨-, hreading⟩ | hnone
    · exact hpath.elim
    · exact hreading
    · exact absurd ⟨rfl, d, h.mem hd, rfl, hstatus⟩ (hnone status w.1)

/-- The bytes of a held regular file. -/
theorem read_runs {owner mode : Nat} {content : Bytes} (hd : d ∈ ds) (hnode : d.node = .file owner mode content) (size : Nat) :
    Runs tree faults (Holding w₀ ds) (fileCall (.read d.fd size)) (fun bytes w => bytes = content.take size ∧ Holding w₀ ds w)
      (fun x w => Holding w₀ ds w ∧ faults.error x ∧ faults.reading) := by
  refine Triple.perform (fun _ _ => trivial) ?_ ?_
  · rintro w bytes w' h ⟨⟨⟨htable, e, he, hfd, owner', mode', content', hnode', hbytes⟩, -⟩, hlog⟩
    obtain rfl := h.mem_eq hd he hfd
    rw [hnode] at hnode'
    cases hnode'
    exact ⟨⟨hbytes, h.same htable hlog fun _ => rfl⟩, trivial⟩
  · rintro w x w' h ⟨⟨htable, herror, hrefused⟩, hlog⟩
    refine ⟨⟨h.same htable hlog fun _ => rfl, herror, ?_⟩, trivial⟩
    rcases hrefused with ⟨path, hpath, -⟩ | ⟨-, hreading⟩ | hnone
    · exact hpath.elim
    · exact hreading
    · exact absurd ⟨rfl, d, h.mem hd, rfl, owner, mode, content, hnode, rfl⟩ (hnone (content.take size) w.1)

/-! ### The directory -/

/-- A descriptor of the directory at the path. -/
def HoldsDirectory (w₀ : List OpenFile) (path : List String) (entries : Entries) (fd : Nat)
    (w : List OpenFile × FileTrace) : Prop :=
  Holding w₀ [⟨fd, path, .dir entries⟩] w

/-- One step down: the directory is opened, then the one above it is closed. -/
theorem stepInto_runs (component : String) (path : List String) (entries : Entries) (current : Nat) :
    Runs tree faults (HoldsDirectory w₀ path entries current)
      (do
        let next ← fileCall (.openDirectory current component)
        fileCall (.close current)
        return next)
      (fun next w => ∃ inner, entries.lookup component = some (.dir inner) ∧ ¬faults.refuses (path ++ [component]) ∧
        HoldsDirectory w₀ (path ++ [component]) inner next w)
      (fun x w => HoldsDirectory w₀ path entries current w ∧ faults.error x ∧
        (faults.fails (path ++ [component]) ∨ ∀ inner, entries.lookup component ≠ some (.dir inner))) := by
  refine Triple.bind (openDirectory_runs (d := ⟨current, path, .dir entries⟩) List.mem_cons_self rfl component) fun next => ?_
  refine Triple.of_exists fun inner => ?_
  rintro w ⟨hlookup, hallowed, h⟩
  have hne : next ≠ current := by
    have hnodup := h.distinct
    simp only [List.map_cons, List.nodup_cons, List.mem_singleton, List.map_nil] at hnodup
    exact hnodup.1
  have honly : [(⟨next, path ++ [component], .dir inner⟩ : OpenFile), ⟨current, path, .dir entries⟩].filter
      (fun e => e.fd != current) = [⟨next, path ++ [component], .dir inner⟩] := by
    simp [hne]
  refine Triple.bind ((close_runs (d := ⟨current, path, .dir entries⟩) (by simp)).conseq (fun _ h => h) (fun _ _ h => h)
    (fun _ _ h => h.elim) fun _ h => h) (fun _ => Triple.ret (fun w' h' => ?_) fun _ _ => trivial) w h
  rw [honly] at h'
  exact ⟨inner, hlookup, hallowed, h'⟩

theorem openComponents_runs (herror : ∀ x, faults.error x → x.isInstance .osError = true) (components path : List String)
    (entries : Entries) (current : Nat) :
    Runs tree faults (HoldsDirectory w₀ path entries current) (openComponents components current)
      (fun fd w => ∃ inner, openDirectory components entries = some inner ∧
        CanOpen (fun p => ¬faults.refuses p) path components entries ∧ HoldsDirectory w₀ (path ++ components) inner fd w)
      (fun x w => Holding w₀ [] w ∧ x = challengeError "challenge directory is unavailable" ∧
        ¬CanOpen (fun p => ¬faults.fails p) path components entries) := by
  induction components generalizing path entries current with
  | nil =>
    refine Triple.ret (fun w h => ⟨entries, rfl, trivial, ?_⟩) fun _ _ => trivial
    rw [List.append_nil]
    exact h
  | cons component rest ih =>
    refine Triple.bind (Triple.attempt (stepInto_runs component path entries current) (fun _ _ _ => trivial)
      fun _ _ _ => trivial) fun step => ?_
    cases step with
    | ok next =>
      refine Triple.of_exists fun inner => ?_
      rintro w ⟨hlookup, hallowed, h⟩
      refine ((ih (path ++ [component]) inner next).conseq (fun _ h => h) ?_ ?_ fun _ h => h) w h
      · rintro fd w' ⟨found, hfound, hcan, hholds⟩
        rw [List.append_assoc] at hholds
        refine ⟨found, ?_, ⟨hallowed, inner, hlookup, hcan⟩, hholds⟩
        rw [← hfound]
        simp only [openDirectory, hlookup]
      · rintro x w' ⟨hholds, hx, hcannot⟩
        refine ⟨hholds, hx, ?_⟩
        rintro ⟨-, inner', hlookup', hcan⟩
        rw [hlookup] at hlookup'
        cases hlookup'
        exact hcannot hcan
    | error x =>
      rintro w ⟨h, hx, hrefused⟩
      have hcannot : ¬CanOpen (fun p => ¬faults.fails p) path (component :: rest) entries := by
        rintro ⟨hallowed, inner, hlookup, -⟩
        exact hrefused.elim hallowed fun hnone => hnone inner hlookup
      have hos := herror x hx
      simp only
      rw [if_pos hos]
      refine Triple.bind ((close_runs (d := ⟨current, path, .dir entries⟩) List.mem_cons_self).conseq (fun _ h => h)
        (fun _ _ h => h) (fun _ _ h => h.elim) fun _ h => h) (fun _ => Triple.raise (fun w' h' => ?_) fun _ _ => trivial) w h
      exact ⟨by simpa using h', rfl, hcannot⟩

theorem challengeDirectory_runs (herror : ∀ x, faults.error x → x.isInstance .osError = true) (webrootId : String) :
    Runs tree faults (Holding w₀ []) (reader.challengeDirectory webrootId)
      (fun fd w => ∃ entries, openDirectory (reader.webrootBase :: challengeComponents webrootId) tree = some entries ∧
        CanOpen (fun p => ¬faults.refuses p) [] (reader.webrootBase :: challengeComponents webrootId) tree ∧
        HoldsDirectory w₀ (reader.webrootBase :: challengeComponents webrootId) entries fd w)
      (fun x w => Holding w₀ [] w ∧
        ((x = challengeError "challenge directory is unavailable" ∧
            CanOpen (fun p => ¬faults.refuses p) [] [reader.webrootBase] tree ∧
            ¬CanOpen (fun p => ¬faults.fails p) [] (reader.webrootBase :: challengeComponents webrootId) tree) ∨
          (faults.error x ∧ ¬CanOpen (fun p => ¬faults.fails p) [] [reader.webrootBase] tree))) := by
  refine Triple.bind ((openBase_runs reader.webrootBase).conseq (fun _ h => h) (fun _ _ h => h) ?_ fun _ h => h) fun fd => ?_
  · rintro x w ⟨h, hx, hrefused⟩
    refine ⟨h, Or.inr ⟨hx, ?_⟩⟩
    rintro ⟨hallowed, inner, hlookup, -⟩
    exact hrefused.elim hallowed fun hnone => hnone inner hlookup
  · refine Triple.of_exists fun inner => ?_
    rintro w ⟨hlookup, hallowed, h⟩
    refine ((openComponents_runs herror (challengeComponents webrootId) [reader.webrootBase] inner fd).conseq (fun _ h => h)
      ?_ ?_ fun _ h => h) w h
    · rintro fd' w' ⟨entries, hentries, hcan, hholds⟩
      refine ⟨entries, ?_, ⟨hallowed, inner, hlookup, hcan⟩, hholds⟩
      rw [← hentries]
      simp only [openDirectory, hlookup]
    · rintro x w' ⟨hholds, hx, hcannot⟩
      refine ⟨hholds, Or.inl ⟨hx, ⟨hallowed, inner, hlookup, trivial⟩, ?_⟩⟩
      rintro ⟨-, inner', hlookup', hcan⟩
      rw [hlookup] at hlookup'
      cases hlookup'
      exact hcannot hcan

/-! ### The file -/

/-- What the file policy lets through. -/
def Served (reader : ChallengeFileReader) (node : PathEntry) (content : Bytes) : Prop :=
  ∃ mode, node = .file reader.expectedOwnerUid mode content ∧ mode &&& 0o022 = 0 ∧ content.length ≤ reader.maxFileBytes

theorem readOpened_runs (hd : d ∈ ds) (hlink : ∀ directory, d.node ≠ .link directory) :
    Runs tree faults (Holding w₀ ds) (reader.readOpened d.fd)
      (fun content w => Served reader d.node content ∧ Holding w₀ ds w)
      (fun x w => Holding w₀ ds w ∧ (x.isInstance .challengeFileError = true ∨ (faults.error x ∧ faults.reading))) := by
  have hstatus : ∃ status, d.node.HasStatus status := by
    cases hnode : d.node with
    | file owner mode content => exact ⟨_, rfl⟩
    | dir entries => exact ⟨⟨false, 0, 0, 0⟩, rfl⟩
    | link directory => exact absurd hnode (hlink directory)
  have hraise : ∀ message, Runs tree faults (Holding w₀ ds) (.raise (challengeError message) : FileAction Bytes)
      (fun content w => Served reader d.node content ∧ Holding w₀ ds w)
      (fun x w => Holding w₀ ds w ∧ (x.isInstance .challengeFileError = true ∨ (faults.error x ∧ faults.reading))) :=
    fun message => Triple.raise (fun _ h => ⟨h, Or.inl rfl⟩) fun _ _ => trivial
  obtain ⟨status, hstatus⟩ := hstatus
  refine Triple.bind ((fstat_runs hd hstatus).conseq (fun _ h => h) (fun _ _ h => h) (fun _ _ h => ⟨h.1, Or.inr h.2⟩)
    fun _ h => h) fun metadata => ?_
  rintro w ⟨hmetadata, h⟩
  by_cases hregular : metadata.regular = false
  · rw [if_pos hregular]
    exact hraise _ w h
  rw [if_neg hregular]
  by_cases howner : metadata.owner ≠ reader.expectedOwnerUid
  · rw [if_pos howner]
    exact hraise _ w h
  rw [if_neg howner]
  by_cases hmode : metadata.mode &&& 0o022 ≠ 0
  · rw [if_pos hmode]
    exact hraise _ w h
  rw [if_neg hmode]
  by_cases hsize : reader.maxFileBytes < metadata.size
  · rw [if_pos hsize]
    exact hraise _ w h
  rw [if_neg hsize]
  cases hnode : d.node with
  | dir entries =>
    rw [hnode] at hmetadata
    exact absurd hmetadata hregular
  | link directory => exact absurd hnode (hlink directory)
  | file owner mode content =>
    rw [hnode] at hmetadata
    obtain rfl : metadata = ⟨true, owner, mode, content.length⟩ := hmetadata
    refine Triple.bind ((read_runs hd hnode _).conseq (fun _ h => h) (fun _ _ h => h) (fun _ _ h => ⟨h.1, Or.inr h.2⟩)
      fun _ h => h) (fun bytes => ?_) w h
    rintro w' ⟨rfl, h'⟩
    have howned : owner = reader.expectedOwnerUid := not_not.1 howner
    have hfits : content.length ≤ reader.maxFileBytes := not_lt.1 hsize
    have hall : content.take (reader.maxFileBytes + 1) = content := List.take_of_length_le (by omega)
    rw [hall, if_neg (not_lt.2 hfits)]
    refine Triple.ret (fun w'' h'' => ⟨?_, h''⟩) (fun _ _ => trivial) w' h'
    exact ⟨mode, by rw [howned], not_not.1 hmode, hfits⟩

theorem tokenContent_runs (herror : ∀ x, faults.error x → x.isInstance .osError = true) {entries : Entries} (hd : d ∈ ds)
    (hnode : d.node = .dir entries) (token : String) :
    Runs tree faults (Holding w₀ ds) (reader.tokenContent d.fd token)
      (fun content w => (∃ node, entries.lookup token = some node ∧ Served reader node content) ∧ Holding w₀ ds w)
      (fun x w => Holding w₀ ds w ∧ (x.isInstance .challengeFileError = true ∨ (faults.error x ∧ faults.reading))) := by
  refine Triple.bind (Triple.attempt (openFile_runs hd hnode token) (fun _ _ _ => trivial) fun _ _ _ => trivial)
    fun opened => ?_
  cases opened with
  | error x =>
    rintro w ⟨h, hx⟩
    have hos := herror x hx
    simp only
    rw [if_pos hos]
    exact Triple.raise (fun _ h => ⟨h, Or.inl rfl⟩) (fun _ _ => trivial) w h
  | ok fd =>
    refine Triple.of_exists fun node => ?_
    rintro w ⟨hlookup, hlink, h⟩
    have hfresh : ∀ e ∈ ds, e.fd ≠ fd := by
      have hnodup := h.distinct
      rw [List.map_cons, List.nodup_cons] at hnodup
      exact fun e he heq => hnodup.1 (List.mem_map.2 ⟨e, he, heq⟩)
    have hclose : Runs tree faults (Holding w₀ (⟨fd, d.path ++ [token], node⟩ :: ds)) (fileCall (.close fd))
        (fun _ => Holding w₀ ds) (fun _ _ => False) := close_head hfresh
    have hread : Runs tree faults (Holding w₀ (⟨fd, d.path ++ [token], node⟩ :: ds))
        ((reader.readOpened fd).ensure (fileCall (.close fd)))
        (fun content w => (∃ node, entries.lookup token = some node ∧ Served reader node content) ∧ Holding w₀ ds w)
        (fun x w => Holding w₀ ds w ∧ (x.isInstance .challengeFileError = true ∨ (faults.error x ∧ faults.reading))) := by
      refine Triple.ensure (readOpened_runs (d := ⟨fd, d.path ++ [token], node⟩) List.mem_cons_self hlink)
        (fun content => ?_) (fun x => ?_) (fun _ _ _ => trivial) fun _ _ _ => trivial
      · rintro w' ⟨hserved, h'⟩
        exact (hclose.conseq (fun _ h => h) (fun _ _ h => ⟨⟨node, hlookup, hserved⟩, h⟩) (fun _ _ h => h.elim)
          fun _ h => h) w' h'
      · rintro w' ⟨h', hx⟩
        exact (hclose.conseq (fun _ h => h) (fun _ _ h => ⟨h, hx⟩) (fun _ _ h => h.elim) fun _ h => h) w' h'
    exact hread w h

/-- Whatever the read answers, nothing of it stays open. -/
theorem challengeContent_runs (herror : ∀ x, faults.error x → x.isInstance .osError = true) (webrootId token : String) :
    Runs tree faults (Holding w₀ []) (reader.challengeContent webrootId token)
      (fun content w => ReadConfined reader tree webrootId token content ∧
        CanOpen (fun p => ¬faults.refuses p) [] [reader.webrootBase] tree ∧ Holding w₀ [] w)
      (fun x w => Holding w₀ [] w ∧
        ((x.isInstance .challengeFileError = true ∧ CanOpen (fun p => ¬faults.refuses p) [] [reader.webrootBase] tree) ∨
          (faults.error x ∧ (faults.reading ∨ ¬CanOpen (fun p => ¬faults.fails p) [] [reader.webrootBase] tree)))) := by
  refine Triple.bind ((challengeDirectory_runs herror webrootId).conseq (fun _ h => h) (fun _ _ h => h) ?_ fun _ h => h)
    fun parent => ?_
  · rintro x w ⟨h, ⟨rfl, hbase, -⟩ | ⟨hx, hbase⟩⟩
    · exact ⟨h, Or.inl ⟨rfl, hbase⟩⟩
    · exact ⟨h, Or.inr ⟨hx, Or.inr hbase⟩⟩
  · refine Triple.of_exists fun entries => ?_
    rintro w ⟨hentries, ⟨hallowed, inner, hlookup, -⟩, h⟩
    have hbase : CanOpen (fun p => ¬faults.refuses p) [] [reader.webrootBase] tree := ⟨hallowed, inner, hlookup, trivial⟩
    have hclose : Runs tree faults (HoldsDirectory w₀ (reader.webrootBase :: challengeComponents webrootId) entries parent)
        (fileCall (.close parent)) (fun _ => Holding w₀ []) (fun _ _ => False) := close_head (by simp)
    have hread : Runs tree faults (HoldsDirectory w₀ (reader.webrootBase :: challengeComponents webrootId) entries parent)
        ((reader.tokenContent parent token).ensure (fileCall (.close parent)))
        (fun content w => ReadConfined reader tree webrootId token content ∧
          CanOpen (fun p => ¬faults.refuses p) [] [reader.webrootBase] tree ∧ Holding w₀ [] w)
        (fun x w => Holding w₀ [] w ∧
          ((x.isInstance .challengeFileError = true ∧ CanOpen (fun p => ¬faults.refuses p) [] [reader.webrootBase] tree) ∨
            (faults.error x ∧ (faults.reading ∨ ¬CanOpen (fun p => ¬faults.fails p) [] [reader.webrootBase] tree)))) := by
      refine Triple.ensure (tokenContent_runs herror List.mem_cons_self rfl token)
        (fun content => ?_) (fun x => ?_) (fun _ _ _ => trivial) fun _ _ _ => trivial
      · rintro w' ⟨⟨node, hnode, mode, rfl, hmode, hlength⟩, h'⟩
        exact (hclose.conseq (fun _ h => h) (fun _ _ h => ⟨⟨⟨entries, mode, hentries, hnode, hmode⟩, hlength⟩, hbase, h⟩)
          (fun _ _ h => h.elim) fun _ h => h) w' h'
      · rintro w' ⟨h', hx⟩
        refine (hclose.conseq (fun _ h => h) (fun _ _ h => ⟨h, ?_⟩) (fun _ _ h => h.elim) fun _ h => h) w' h'
        exact hx.imp (fun hchallenge => ⟨hchallenge, hbase⟩) fun hreading => ⟨hreading.1, Or.inl hreading.2⟩
    exact hread w h

theorem not_challengeError_of_osError {x : Exc} (h : x.isInstance .osError = true) :
    ¬x.isInstance .challengeFileError = true := by
  have hclass : ∀ c : ExcClass, c.mro.contains .osError = true → ¬c.mro.contains .challengeFileError = true := by
    intro c
    cases c <;> decide
  exact hclass x.cls h

/-- Readiness: what it answers, and nothing of it stays open. -/
theorem ready_runs (herror : ∀ x, faults.error x → x.isInstance .osError = true) (webroots : List String) :
    Runs tree faults (Holding w₀ []) (ready reader webroots)
      (fun answer w => Holding w₀ [] w ∧
        (answer = true → ∀ webrootId ∈ webroots,
          CanOpen (fun p => ¬faults.refuses p) [] (reader.webrootBase :: challengeComponents webrootId) tree) ∧
        (answer = false → CanOpen (fun p => ¬faults.refuses p) [] [reader.webrootBase] tree ∧ ∃ webrootId ∈ webroots,
          ¬CanOpen (fun p => ¬faults.fails p) [] (reader.webrootBase :: challengeComponents webrootId) tree))
      (fun x w => Holding w₀ [] w ∧ faults.error x ∧ webroots ≠ [] ∧
        ¬CanOpen (fun p => ¬faults.fails p) [] [reader.webrootBase] tree) := by
  induction webroots with
  | nil => exact Triple.ret (fun _ h => ⟨h, by simp, nofun⟩) fun _ _ => trivial
  | cons webrootId rest ih =>
    refine Triple.bind (Triple.attempt (challengeDirectory_runs herror webrootId) (fun _ _ _ => trivial) fun _ _ _ => trivial)
      fun opened => ?_
    cases opened with
    | error x =>
      rintro w ⟨h, ⟨rfl, hbase, hcannot⟩ | ⟨hx, hbase⟩⟩
      · exact Triple.ret (fun _ h => ⟨h, nofun, fun _ => ⟨hbase, webrootId, List.mem_cons_self, hcannot⟩⟩)
          (fun _ _ => trivial) w h
      · have hos := herror x hx
        simp only
        rw [if_neg (not_challengeError_of_osError hos)]
        exact Triple.raise (fun _ h => ⟨h, hx, by simp, hbase⟩) (fun _ _ => trivial) w h
    | ok fd =>
      refine Triple.of_exists fun entries => ?_
      rintro w ⟨-, hcan, h⟩
      have hclose : Runs tree faults (HoldsDirectory w₀ (reader.webrootBase :: challengeComponents webrootId) entries fd)
          (fileCall (.close fd)) (fun _ => Holding w₀ []) (fun _ _ => False) := close_head (by simp)
      refine Triple.bind (hclose.conseq (fun _ h => h) (fun _ _ h => h) (fun _ _ h => h.elim) fun _ h => h) (fun _ => ?_) w h
      refine ih.conseq (fun _ h => h) ?_ (fun x w hx => ⟨hx.1, hx.2.1, by simp, hx.2.2.2⟩) fun _ h => h
      rintro answer w' ⟨h', htrue, hfalse⟩
      refine ⟨h', fun ha => List.forall_mem_cons.2 ⟨hcan, htrue ha⟩, fun ha => ?_⟩
      obtain ⟨hbase, other, hother, hcannot⟩ := hfalse ha
      exact ⟨hbase, other, List.mem_cons_of_mem _ hother, hcannot⟩

theorem holding_begin (w₀ : List OpenFile) : Holding w₀ [] (w₀, []) := ⟨rfl, rfl, List.nodup_nil, by simp⟩

end ChallengeDescriptorsAux

/-- Any call but `close` may fail with any `OSError`, at any time. -/
def anyFaults : FileFaults where
  refuses _ := False
  fails _ := True
  reading := True
  error x := x.isInstance .osError = true

open ChallengeDescriptorsAux in
/-- Challenge reads are confined and leak no descriptors. Over every tree, whatever open, `fstat` and read refuse: what `read` returns
is the content of the challenge file, reached without a link and within the policy; and on every way out of `read`, of `ready` and
of an opening that fails, every descriptor that was opened was closed once, and those of before are as they were. -/
theorem challenge_reads_confined (tree : Entries) (reader : ChallengeFileReader) (w₀ : List OpenFile) :
    (∀ webrootId token o w t,
      Exec (recording (fileSystem tree anyFaults)) (reader.challengeContent webrootId token) (w₀, []) o (w, t) → o ≠ .crashed →
        (held t = some [] ∧ w = w₀) ∧ ∀ content, o = .returned content → ReadConfined reader tree webrootId token content) ∧
      (∀ webrootId o w t,
        Exec (recording (fileSystem tree anyFaults)) (reader.challengeDirectory webrootId) (w₀, []) o (w, t) →
          (∀ x, o = .raised x → held t = some [] ∧ w = w₀) ∧ ∀ fd, o = .returned fd → held t = some [fd]) ∧
      ∀ webroots o w t, Exec (recording (fileSystem tree anyFaults)) (ready reader webroots) (w₀, []) o (w, t) → o ≠ .crashed →
        held t = some [] ∧ w = w₀ := by
  have herror : ∀ x, anyFaults.error x → x.isInstance .osError = true := fun _ h => h
  have hclosed : ∀ {w : List OpenFile} {t : FileTrace}, Holding w₀ [] (w, t) → held t = some [] ∧ w = w₀ :=
    fun h => ⟨h.account, h.table⟩
  refine ⟨fun webrootId token o w t h ho => ?_, fun webrootId o w t h => ?_, fun webroots o w t h ho => ?_⟩
  · have hpost := challengeContent_runs herror webrootId token _ (holding_begin w₀) _ _ h
    cases o with
    | returned content =>
      refine ⟨hclosed hpost.2.2, ?_⟩
      rintro _ ⟨⟩
      exact hpost.1
    | raised x => exact ⟨hclosed hpost.1, nofun⟩
    | crashed => exact absurd rfl ho
  · have hpost := challengeDirectory_runs herror webrootId _ (holding_begin w₀) _ _ h
    refine ⟨?_, ?_⟩
    · rintro x rfl
      exact hclosed hpost.1
    · rintro fd rfl
      obtain ⟨entries, -, -, hholds⟩ := hpost
      exact hholds.account
  · have hpost := ready_runs herror webroots _ (holding_begin w₀) _ _ h
    cases o with
    | returned answer => exact hclosed hpost.1
    | raised x => exact hclosed hpost.1
    | crashed => exact absurd rfl ho

/-- What `_read_token` of the pure model lets through. -/
theorem readToken_eq_ok_iff (reader : ChallengeFileReader) {entries : Entries} {token : String} {content : Bytes} :
    reader.readToken entries token = .ok content ↔ ∃ mode,
      entries.lookup token = some (.file reader.expectedOwnerUid mode content) ∧ mode &&& 0o022 = 0 ∧
        content.length ≤ reader.maxFileBytes := by
  unfold ChallengeFileReader.readToken
  cases hlookup : entries.lookup token with
  | none => simp
  | some node =>
    cases node with
    | dir inner => simp
    | link directory => simp
    | file owner mode stored =>
      by_cases howner : owner = reader.expectedOwnerUid
      · by_cases hmode : mode &&& 0o022 = 0
        · by_cases hsize : stored.length ≤ reader.maxFileBytes
          · have hall : stored.take (reader.maxFileBytes + 1) = stored := List.take_of_length_le (by omega)
            subst howner
            simp only [ne_eq, not_true, if_false, hmode, not_lt.2 hsize, hall]
            constructor
            · rintro ⟨⟩
              exact ⟨mode, rfl, hmode, hsize⟩
            · rintro ⟨mode', heq, -, -⟩
              cases heq
              rfl
          · simp only [howner, hmode, not_le.1 hsize, ne_eq, not_true, if_false, if_true]
            refine ⟨nofun, ?_⟩
            rintro ⟨mode', heq, -, hle⟩
            cases heq
            exact absurd hle hsize
        · simp only [howner, hmode, ne_eq, not_true, not_false_iff, if_false, if_true]
          refine ⟨nofun, ?_⟩
          rintro ⟨mode', heq, hmode', -⟩
          cases heq
          exact absurd hmode' hmode
      · simp only [howner, ne_eq, not_false_iff, if_true]
        refine ⟨nofun, ?_⟩
        rintro ⟨mode', heq, -, -⟩
        cases heq
        exact absurd rfl howner

/-- The content is what the reader of the pure model reads. -/
theorem readConfined_iff (reader : ChallengeFileReader) (tree : Entries) (webrootId token : String) (content : Bytes) :
    ReadConfined reader tree webrootId token content ↔ reader.read webrootId token tree = .ok content := by
  unfold ChallengeFileReader.read
  rw [bind_eq_ok_iff]
  constructor
  · rintro ⟨⟨entries, mode, hentries, hlookup, hmode⟩, hbounded⟩
    refine ⟨entries, (ServedChallengeAux.openChallengeDirectory_eq reader webrootId tree entries).2 hentries, ?_⟩
    exact (readToken_eq_ok_iff reader).2 ⟨mode, hlookup, hmode, hbounded⟩
  · rintro ⟨entries, hopen, hread⟩
    obtain ⟨mode, hlookup, hmode, hbounded⟩ := (readToken_eq_ok_iff reader).1 hread
    have hentries := (ServedChallengeAux.openChallengeDirectory_eq reader webrootId tree entries).1 hopen
    exact ⟨⟨entries, mode, hentries, hlookup, hmode⟩, hbounded⟩

namespace ChallengeDescriptorsSample

/-- A descriptor above all that are in use. -/
def freshFd (w : List OpenFile) : Nat := (w.map (·.fd)).foldr max 0 + 1

theorem freshFd_fresh (w : List OpenFile) : ∀ d ∈ w, d.fd ≠ freshFd w := by
  intro d hd
  have hle : d.fd ≤ (w.map (·.fd)).foldr max 0 := by
    induction w with
    | nil => cases hd
    | cons e rest ih =>
      rcases List.mem_cons.1 hd with rfl | hd
      · exact Nat.le_max_left _ _
      · exact (ih hd).trans (Nat.le_max_right _ _)
  unfold freshFd
  omega

/-- The error of a path that cannot be opened. -/
def missing : Exc := .of .osError "No such file or directory"

/-- A file is opened where there is one. -/
def opening (w : List OpenFile) (path : List String) : Option PathEntry → Except Exc Nat × List OpenFile
  | some node => (.ok (freshFd w), ⟨freshFd w, path, node⟩ :: w)
  | none => (.error missing, w)

/-- What opens as a directory. -/
def asDirectory : Option PathEntry → Option PathEntry
  | some (.dir inner) => some (.dir inner)
  | _ => none

/-- What opens as a file. -/
def asFile : Option PathEntry → Option PathEntry
  | some (.link _) | none => none
  | some node => some node

/-- What a file system answers that refuses nothing but what is not there. -/
def answered (tree : Entries) (w : List OpenFile) (op : FileOp) : Option (Except Exc (descriptors.Reply op) × List OpenFile) :=
  match op with
  | .openBase path => some (opening w [path] (asDirectory (tree.lookup path)))
  | .openDirectory parent name =>
    match w.find? (fun d => d.fd == parent) with
    | some ⟨_, path, .dir entries⟩ => some (opening w (path ++ [name]) (asDirectory (entries.lookup name)))
    | _ => none
  | .openFile parent name =>
    match w.find? (fun d => d.fd == parent) with
    | some ⟨_, path, .dir entries⟩ => some (opening w (path ++ [name]) (asFile (entries.lookup name)))
    | _ => none
  | .fstat fd =>
    match w.find? (fun d => d.fd == fd) with
    | some ⟨_, _, .file owner mode content⟩ => some (.ok ⟨true, owner, mode, content.length⟩, w)
    | some ⟨_, _, .dir _⟩ => some (.ok ⟨false, 0, 0, 0⟩, w)
    | _ => none
  | .read fd size =>
    match w.find? (fun d => d.fd == fd) with
    | some ⟨_, _, .file _ _ content⟩ => some (.ok (content.take size), w)
    | _ => none
  | .close fd => if w.any (fun d => d.fd == fd) then some (.ok (), w.filter (fun d => d.fd != fd)) else none

/-- A file system over descriptors of one file each. -/
def serve (tree : Entries) : Handler descriptors Exc (List OpenFile) := fun w op =>
  if (w.map (·.fd)).Nodup then answered tree w op else none

theorem mem_of_find {w : List OpenFile} {fd : Nat} {d : OpenFile} (hw : (w.map (·.fd)).Nodup)
    (h : w.find? (fun d => d.fd == fd) = some d) : d ∈ w ∧ d.fd = fd ∧ ∀ e ∈ w, e.fd = fd → e = d := by
  have hmem := List.mem_of_find?_eq_some h
  have hfd : d.fd = fd := by simpa using List.find?_some h
  exact ⟨hmem, hfd, fun e he hefd => List.inj_on_of_nodup_map hw he hmem (hefd.trans hfd.symm)⟩

theorem asDirectory_eq_some {found : Option PathEntry} {node : PathEntry} (h : asDirectory found = some node) :
    ∃ inner, found = some (.dir inner) ∧ node = .dir inner := by
  unfold asDirectory at h
  split at h
  · cases h
    exact ⟨_, rfl, rfl⟩
  · cases h

theorem asFile_eq_some {found : Option PathEntry} {node : PathEntry} (h : asFile found = some node) :
    found = some node ∧ ∀ directory, node ≠ .link directory := by
  unfold asFile at h
  split at h
  · cases h
  · cases h
  · rename_i hlink
    cases h
    exact ⟨rfl, fun directory heq => hlink directory (by rw [heq])⟩

theorem serve_allowed (tree : Entries) {faults : FileFaults} (hrefuses : ∀ path, ¬faults.refuses path)
    (herror : faults.error missing) : (serve tree).Allowed (fileSystem tree faults) := by
  intro w op r w' h
  unfold serve at h
  split at h
  next hw =>
    cases op with
    | openBase path =>
      unfold answered at h
      cases hfound : asDirectory (tree.lookup path) with
      | some node =>
        obtain ⟨inner, hlookup, rfl⟩ := asDirectory_eq_some hfound
        simp only [hfound, opening] at h
        cases h
        exact ⟨⟨inner, hlookup, freshFd_fresh w, rfl⟩, fun path _ => hrefuses path⟩
      | none =>
        simp only [hfound, opening] at h
        cases h
        refine ⟨rfl, herror, Or.inr (Or.inr ?_)⟩
        rintro fd w₁ ⟨inner, hlookup, -⟩
        rw [hlookup] at hfound
        cases hfound
    | openDirectory parent name =>
      simp only [answered] at h
      split at h
      · rename_i fd path entries hfind
        obtain ⟨hmem, hfd, honly⟩ := mem_of_find hw hfind
        cases hfound : asDirectory (entries.lookup name) with
        | some node =>
          obtain ⟨inner, hlookup, rfl⟩ := asDirectory_eq_some hfound
          rw [hfound] at h
          cases h
          exact ⟨⟨_, hmem, hfd, entries, inner, rfl, hlookup, freshFd_fresh w, rfl⟩, fun path _ => hrefuses path⟩
        | none =>
          rw [hfound] at h
          cases h
          refine ⟨rfl, herror, Or.inr (Or.inr ?_)⟩
          rintro fd' w₁ ⟨e, he, hefd, entries', inner, hnode, hlookup, -⟩
          rw [honly e he hefd] at hnode
          cases hnode
          rw [hlookup] at hfound
          cases hfound
      · cases h
    | openFile parent name =>
      simp only [answered] at h
      split at h
      · rename_i fd path entries hfind
        obtain ⟨hmem, hfd, honly⟩ := mem_of_find hw hfind
        cases hfound : asFile (entries.lookup name) with
        | some node =>
          obtain ⟨hlookup, hlink⟩ := asFile_eq_some hfound
          rw [hfound] at h
          cases h
          exact ⟨⟨_, hmem, hfd, entries, node, rfl, hlookup, hlink, freshFd_fresh w, rfl⟩, fun path _ => hrefuses path⟩
        | none =>
          rw [hfound] at h
          cases h
          refine ⟨rfl, herror, Or.inr (Or.inr ?_)⟩
          rintro fd' w₁ ⟨e, he, hefd, entries', node, hnode, hlookup, hlink, -⟩
          rw [honly e he hefd] at hnode
          cases hnode
          rw [hlookup] at hfound
          cases node with
          | link directory => exact hlink directory rfl
          | file | dir => cases hfound
      · cases h
    | fstat fd =>
      simp only [answered] at h
      split at h
      · rename_i hfind
        obtain ⟨hmem, hfd, -⟩ := mem_of_find hw hfind
        cases h
        exact ⟨⟨rfl, _, hmem, hfd, rfl⟩, fun path hpath => hpath.elim⟩
      · rename_i hfind
        obtain ⟨hmem, hfd, -⟩ := mem_of_find hw hfind
        cases h
        exact ⟨⟨rfl, _, hmem, hfd, rfl⟩, fun path hpath => hpath.elim⟩
      · cases h
    | read fd size =>
      simp only [answered] at h
      split at h
      · rename_i hfind
        obtain ⟨hmem, hfd, -⟩ := mem_of_find hw hfind
        cases h
        exact ⟨⟨rfl, _, hmem, hfd, _, _, _, rfl, rfl⟩, fun path hpath => hpath.elim⟩
      · cases h
    | close fd =>
      simp only [answered] at h
      split at h
      · rename_i hany
        obtain ⟨d, hd, hfd⟩ := List.any_eq_true.1 hany
        cases h
        exact ⟨⟨⟨d, hd, by simpa using hfd⟩, rfl⟩, fun path hpath => hpath.elim⟩
      · cases h
  next => cases h

/-- A reader of the sample webroot. -/
def reader : ChallengeFileReader := ⟨"/webroot", 64, 990⟩

def token : String := "AAAAAAAAAAAAAAAAAAAA"

/-- The read of a challenge file. -/
def run : Outcome Exc Bytes × List OpenFile × FileTrace :=
  (reader.challengeContent "web" token).runFor (serve (ServedChallengeAux.sampleTree token [66])).record 20 ([], [])

end ChallengeDescriptorsSample

/-- A challenge file is read, and everything closed. -/
theorem challenge_reads_confined_sample :
    ReadConfined ChallengeDescriptorsSample.reader (ServedChallengeAux.sampleTree ChallengeDescriptorsSample.token [66]) "web"
      ChallengeDescriptorsSample.token [66] ∧ held ChallengeDescriptorsSample.run.2.2 = some [] := by
  have hreturned : ChallengeDescriptorsSample.run.1 = .returned [66] := by decide +kernel
  have hallowed : (ChallengeDescriptorsSample.serve (ServedChallengeAux.sampleTree ChallengeDescriptorsSample.token [66])).Allowed
      (fileSystem (ServedChallengeAux.sampleTree ChallengeDescriptorsSample.token [66]) anyFaults) :=
    ChallengeDescriptorsSample.serve_allowed _ (fun _ => id) rfl
  have hrun := exec_of_runFor hallowed.record hreturned
  have hread := (challenge_reads_confined _ ChallengeDescriptorsSample.reader []).1 "web" ChallengeDescriptorsSample.token _ _ _ hrun
    nofun
  exact ⟨hread.2 _ rfl, hread.1.1⟩

end OciAcmePublisher
