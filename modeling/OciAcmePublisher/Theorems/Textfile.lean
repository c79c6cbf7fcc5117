import OciAcmePublisher.Scrapes
import OciAcmePublisher.Simulation
import OciAcmePublisher.Theorems.DurableWrites
import OciAcmePublisher.Theorems.MetricLabels

/-!
# The textfile is whole at every moment

Any number of processes write their scrapes to one textfile, their writes are short, calls fail, and processes are
killed: whenever it is read, the textfile is the one from before or the whole scrape of one process, and its samples are
read back.
-/

namespace OciAcmePublisher

open Effects DurableFiles

namespace TextfileAux

/-! ## Names -/

theorem toString_injective {m n : Nat} (h : toString m = toString n) : m = n := by
  have hdigits : Nat.toDigits 10 m = Nat.toDigits 10 n := String.ofList_injective h
  rw [← Nat.ofDigitChars_toDigits (b := 10) (n := m) (by decide) (by decide), hdigits, Nat.ofDigitChars_toDigits (by decide)
    (by decide)]

theorem temporaryOf_injective {path : String} {m n : Nat} (h : temporaryOf path m = temporaryOf path n) : m = n := by
  unfold temporaryOf withName at h
  exact toString_injective (by simpa using h)

/-- A path is its directory and its name. -/
theorem withName_fileName (path : String) : withName path (fileName path) = path := by
  unfold withName fileName
  rw [← String.ofList_append, ← List.reverse_append, List.takeWhile_append_dropWhile, List.reverse_reverse, String.ofList_toList]

theorem temporaryOf_ne (path : String) (pid : Nat) : temporaryOf path pid ≠ path := by
  intro h
  have hlength := congrArg String.length (h.trans (withName_fileName path).symm)
  unfold temporaryOf withName at hlength
  simp only [String.length_append] at hlength
  have hdot : ".".length = 1 := rfl
  omega

/-! ## What a process knows -/

/-- What a process knows of its temporary file: nothing, or what it has written to it; or that its scrape is in the textfile. -/
inductive Held where
  | nothing
  | file (content : Bytes)
  | published
  /-- It did what it may not do. -/
  | astray

variable {path : String} {process : Scraper} {short : ShortWrites}

/-- What the textfile is to hold. -/
abbrev wholeOf (process : Scraper) : Except Exc Bytes := metricsContent process.str process.scrape.metrics

/-- What it knows after a call that took effect, and after one that did not. -/
def Held.upon {α : Type} (r : Except Exc α) (done : α → Held) (kept : Held) : Held :=
  match r with
  | .ok a => done a
  | .error _ => kept

/-- What a process knows after a call: only its temporary file is created, written, removed or put in the place of the
textfile, and the last only when it is whole. -/
def Held.after (path : String) (process : Scraper) (held : Held) : (op : FileCall) → Except Exc (fileCalls.Reply op) → Held
  | .create created _, r =>
    match held with
    | .nothing => if created = temporaryOf path process.pid then upon r (fun _ => .file []) .nothing else .astray
    | _ => .astray
  | .write written bytes, r =>
    match held with
    | .file content =>
      if written = temporaryOf path process.pid then upon r (fun n : Nat => .file (content ++ bytes.take n))
      (.file content) else .astray
    | _ => .astray
  | .replace source target, r =>
    match held with
    | .file content =>
      if source = temporaryOf path process.pid ∧ target = path ∧ wholeOf process = .ok content then
        upon r (fun _ => .published) (.file content)
      else .astray
    | _ => .astray
  | .unlink removed, r =>
    match held with
    | .file content => if removed = temporaryOf path process.pid then upon r (fun _ => .nothing) (.file content) else .astray
    | _ => .astray
  | _, _ => held

/-- The calls of a process, as it sees them. -/
def seen (path : String) (process : Scraper) : Env fileCalls Exc Held := fun held op answer held' =>
  held' = held.after path process op answer ∧ OwnPid process.pid op answer

/-- It never goes astray. -/
abbrev Sound (_ held : Held) : Prop := held ≠ .astray

/-- The action keeps to its temporary file. -/
abbrev Minds {α : Type} (path : String) (process : Scraper) (P : Held → Prop) (action : DurableFiles.FileAction α)
    (Q : α → Held → Prop) (E : Held → Prop) : Prop :=
  Guarded (seen path process) Sound P action Q fun _ => E

theorem minds_idle (op : FileCall) (h : leavesFiles op) {P : Held → Prop} (hP : ∀ held, P held → held ≠ .astray) :
    Minds path process P (DurableFiles.fileCall op) (fun _ => P) P := by
  have hsame : ∀ held answer held', seen path process held op answer held' → held' = held := by
    rintro held answer held' ⟨rfl, -⟩
    cases op <;> first | exact h.elim | rfl
  refine Guarded.perform (fun held _ held' hheld hstep => ?_) (fun held _ held' hheld hstep => ?_)
    fun held _ held' hheld hstep => ?_
  all_goals rw [hsame _ _ _ hstep]
  · exact hP held hheld
  · exact hheld
  · exact hheld

theorem minds_getpid {P : Held → Prop} (hP : ∀ held, P held → held ≠ .astray) :
    Minds path process P (DurableFiles.fileCall .getpid) (fun pid held => pid = process.pid ∧ P held) P := by
  refine Guarded.perform (fun held _ held' hheld hstep => ?_) (fun held _ held' hheld hstep => ?_)
    fun held _ held' hheld hstep => ?_
  all_goals obtain ⟨rfl, hpid⟩ := hstep
  · exact hP _ hheld
  · exact ⟨hpid, hheld⟩
  · exact hheld

/-- The process has its temporary file, with anything in it. -/
def Owns (held : Held) : Prop := ∃ content, held = .file content

theorem Owns.sound {held : Held} (h : Owns held) : held ≠ .astray := by
  obtain ⟨content, rfl⟩ := h
  exact nofun

theorem minds_create (mode : Nat) :
    Minds path process (· = .nothing) (DurableFiles.fileCall (.create (temporaryOf path process.pid) mode)) (fun _ held => held = .file [])
      fun held => held = .nothing := by
  have hafter : ∀ r, Held.nothing.after path process (.create (temporaryOf path process.pid) mode) r =
      .upon r (fun _ => .file []) .nothing := fun r => if_pos rfl
  refine Guarded.perform ?_ ?_ ?_
  · rintro _ r _ rfl ⟨rfl, -⟩
    rw [hafter]
    cases r <;> exact nofun
  · rintro _ _ _ rfl ⟨rfl, -⟩
    exact hafter _
  · rintro _ _ _ rfl ⟨rfl, -⟩
    exact hafter _

theorem minds_write (content bytes : Bytes) :
    Minds path process (· = .file content) (DurableFiles.fileCall (.write (temporaryOf path process.pid) bytes))
      (fun n held => held = .file (content ++ bytes.take n)) Owns := by
  have hafter : ∀ r, (Held.file content).after path process (.write (temporaryOf path process.pid) bytes) r =
      .upon r (fun n : Nat => .file (content ++ bytes.take n)) (.file content) := fun r => if_pos rfl
  refine Guarded.perform ?_ ?_ ?_
  · rintro _ r _ rfl ⟨rfl, -⟩
    rw [hafter]
    cases r <;> exact nofun
  · rintro _ _ _ rfl ⟨rfl, -⟩
    exact hafter _
  · rintro _ _ _ rfl ⟨rfl, -⟩
    exact ⟨content, hafter _⟩

theorem minds_unlink : Minds path process Owns (DurableFiles.fileCall (.unlink (temporaryOf path process.pid))) (fun _ held => held ≠ .astray)
    fun held => held ≠ .astray := by
  have hafter : ∀ content r, (Held.file content).after path process (.unlink (temporaryOf path process.pid)) r =
      .upon r (fun _ => .nothing) (.file content) := fun content r => if_pos rfl
  have hsound : ∀ held r held', Owns held → seen path process held (.unlink (temporaryOf path process.pid)) r held' →
    held' ≠ .astray := by
    rintro _ r _ ⟨content, rfl⟩ ⟨rfl, -⟩
    rw [hafter]
    cases r <;> exact nofun
  exact Guarded.perform hsound (fun _ _ => hsound _ _) fun _ _ => hsound _ _

theorem minds_replace {content : Bytes} (h : wholeOf process = .ok content) :
    Minds path process (· = .file content) (DurableFiles.fileCall (.replace (temporaryOf path process.pid) path))
    (fun _ held => held = .published)
      fun _ => True := by
  have hafter : ∀ r, (Held.file content).after path process (.replace (temporaryOf path process.pid) path) r =
      .upon r (fun _ => .published) (.file content) := fun r => if_pos ⟨rfl, rfl, h⟩
  refine Guarded.perform ?_ ?_ fun _ _ _ _ _ => trivial
  · rintro _ r _ rfl ⟨rfl, -⟩
    rw [hafter]
    cases r <;> exact nofun
  · rintro _ _ _ rfl ⟨rfl, -⟩
    exact hafter _

/-- Each round of the loop adds to the temporary file what its write has stored. -/
theorem minds_writeLoop (content : Bytes) (rounds offset : Nat) :
    Minds path process (· = .file (content.take offset)) (writeLoop (temporaryOf path process.pid) content rounds offset)
      (fun _ held => held = .file content) Owns := by
  have hwhole : ∀ {offset}, ¬offset < content.length → ∀ held, held = Held.file (content.take offset) → held = .file content := by
    rintro offset hoffset _ rfl
    rw [List.take_of_length_le (Nat.not_lt.1 hoffset)]
  induction rounds generalizing offset with
  | zero =>
    unfold writeLoop
    by_cases hoffset : offset < content.length
    · rw [if_pos hoffset]
      exact fun _ _ => trivial
    · rw [if_neg hoffset]
      exact Guarded.ret (hwhole hoffset)
  | succ rounds ih =>
    unfold writeLoop
    by_cases hoffset : offset < content.length
    · rw [if_pos hoffset]
      refine Guarded.bind (minds_write _ _) fun n => ?_
      refine (ih (offset + n)).conseq (fun held hheld => ?_) (fun _ _ hheld => hheld) fun _ _ hheld => hheld
      rw [hheld, List.take_add]
    · rw [if_neg hoffset]
      exact Guarded.ret (hwhole hoffset)

/-- The whole scrape is in the temporary file where it could be rendered and written. -/
theorem minds_fill (made : Except Exc Bytes) :
    Minds path process (· = .file []) ((ofExcept made).bind (fill (temporaryOf path process.pid)))
      (fun _ held => ∃ content, made = .ok content ∧ held = .file content) Owns := by
  cases made with
  | error error => exact Guarded.raise fun _ hheld => ⟨[], hheld⟩
  | ok content =>
    have hfsync : Minds path process (· = .file content) (DurableFiles.fileCall (.fsync (temporaryOf path process.pid)))
        (fun _ held => held = .file content) Owns :=
      (minds_idle (.fsync _) trivial (by rintro _ rfl; exact nofun)).conseq (fun _ h => h) (fun _ _ h => h) fun _ _ h =>
      ⟨content, h⟩
    show Minds path process _ (fill (temporaryOf path process.pid) content) _ _
    refine Guarded.bind (minds_writeLoop content content.length 0) fun _ => ?_
    exact hfsync.conseq (fun _ h => h) (fun _ _ h => ⟨content, rfl, h⟩) fun _ _ h => h

/-- `write_metrics` touches its own temporary file alone, until that holds the whole scrape and takes the place of the
textfile; where it returns, it did. -/
theorem minds_writeMetrics : Minds path process (· = .nothing) (writeMetrics process.str path process.scrape.metrics)
    (fun _ held => held = .published) fun _ => True := by
  have hnothing : ∀ held, held = Held.nothing → held ≠ .astray := by
    rintro _ rfl
    exact nofun
  have hloose : ∀ {α : Type} {P : Held → Prop} {action : DurableFiles.FileAction α} {Q : α → Held → Prop} {E : Held → Prop},
      Minds path process P action Q E → Minds path process P action Q fun _ => True :=
    fun h => h.conseq (fun _ h => h) (fun _ _ h => h) fun _ _ _ => trivial
  refine Guarded.bind (hloose (minds_idle (.makeParent _ _) trivial hnothing)) fun _ => ?_
  refine Guarded.bind (hloose (minds_getpid hnothing)) fun pid => ?_
  rintro held ⟨rfl, hheld⟩
  refine Guarded.bind (hloose (minds_create _)) (fun _ => ?_) held hheld
  refine Guarded.bind (Guarded.attempt (minds_fill (wholeOf process))) ?_
  rintro (error | _)
  · refine Guarded.bind (hloose (minds_idle (.close _) trivial fun _ h => h.sound)) fun _ => ?_
    exact Guarded.bind (hloose minds_unlink) fun _ => Guarded.raise fun _ _ => trivial
  · intro held hheld
    obtain ⟨content, hmade, rfl⟩ := hheld
    refine Guarded.bind (hloose (minds_idle (.close _) trivial ?_)) (fun _ => minds_replace hmade) (Held.file content) rfl
    rintro _ rfl
    exact nofun

/-! ## One call on the file system -/

/-- The disk is as the process knows it. -/
def Held.Fits (path : String) (process : Scraper) (d : Disk) : Held → Prop
  | .file content => d.files (temporaryOf path process.pid) = some content
  | _ => True

theorem after_create {held : Held} {created : String} {mode : Nat} {r : Except Exc Unit}
    (h : held.after path process (.create created mode) r ≠ .astray) :
    held = .nothing ∧ created = temporaryOf path process.pid ∧
      held.after path process (.create created mode) r = .upon r (fun _ => .file []) .nothing := by
  cases held with
  | nothing =>
    by_cases hcreated : created = temporaryOf path process.pid
    · exact ⟨rfl, hcreated, if_pos hcreated⟩
    · exact absurd (if_neg hcreated) h
  | _ => exact absurd rfl h

theorem after_write {held : Held} {written : String} {bytes : Bytes} {r : Except Exc Nat}
    (h : held.after path process (.write written bytes) r ≠ .astray) :
    ∃ content, held = .file content ∧ written = temporaryOf path process.pid ∧
      held.after path process (.write written bytes) r = .upon r (fun n => .file (content ++ bytes.take n)) (.file content) := by
  cases held with
  | file content =>
    by_cases hwritten : written = temporaryOf path process.pid
    · exact ⟨content, rfl, hwritten, if_pos hwritten⟩
    · exact absurd (if_neg hwritten) h
  | _ => exact absurd rfl h

theorem after_replace {held : Held} {source target : String} {r : Except Exc Unit}
    (h : held.after path process (.replace source target) r ≠ .astray) :
    ∃ content, held = .file content ∧ source = temporaryOf path process.pid ∧ target = path ∧ wholeOf process = .ok content ∧
      held.after path process (.replace source target) r = .upon r (fun _ => .published) (.file content) := by
  cases held with
  | file content =>
    by_cases hreplaced : source = temporaryOf path process.pid ∧ target = path ∧ wholeOf process = .ok content
    · exact ⟨content, rfl, hreplaced.1, hreplaced.2.1, hreplaced.2.2, if_pos hreplaced⟩
    · exact absurd (if_neg hreplaced) h
  | _ => exact absurd rfl h

theorem after_unlink {held : Held} {removed : String} {r : Except Exc Unit}
    (h : held.after path process (.unlink removed) r ≠ .astray) :
    ∃ content, held = .file content ∧ removed = temporaryOf path process.pid ∧
      held.after path process (.unlink removed) r = .upon r (fun _ => .nothing) (.file content) := by
  cases held with
  | file content =>
    by_cases hremoved : removed = temporaryOf path process.pid
    · exact ⟨content, rfl, hremoved, if_pos hremoved⟩
    · exact absurd (if_neg hremoved) h
  | _ => exact absurd rfl h

/-- A call that raises changes nothing of what is known. -/
theorem after_error {held : Held} {op : FileCall} {x : Exc} (h : held.after path process op (.error x) ≠ .astray) :
    held.after path process op (.error x) = held := by
  cases op with
  | create =>
    obtain ⟨rfl, -, hafter⟩ := after_create h
    exact hafter
  | write =>
    obtain ⟨content, rfl, -, hafter⟩ := after_write h
    exact hafter
  | replace =>
    obtain ⟨content, rfl, -, -, -, hafter⟩ := after_replace h
    exact hafter
  | unlink =>
    obtain ⟨content, rfl, -, hafter⟩ := after_unlink h
    exact hafter
  | _ => rfl

/-- What a process may do leaves every file alone but its temporary one and the textfile, and to the textfile it brings its whole
scrape. -/
theorem fits_step {held : Held} {d d' : Disk} {op : FileCall} {answer : Except Exc (fileCalls.Reply op)}
    (hfits : held.Fits path process d)
    (hstep : DurableFiles.fileSystem short d op answer d') (hsound : held.after path process op answer ≠ .astray) :
    (held.after path process op answer).Fits path process d' ∧
      (∀ other, other ≠ path → other ≠ temporaryOf path process.pid → d'.files other = d.files other) ∧
        ((d'.files path = d.files path ∧ (held.after path process op answer = .published → held = .published)) ∨
          ∃ content, wholeOf process = .ok content ∧ d'.files path = some content) := by
  have hne := temporaryOf_ne path process.pid
  cases answer with
  | error x =>
    rw [show d' = d from hstep, after_error hsound]
    exact ⟨hfits, fun _ _ _ => rfl, Or.inl ⟨rfl, id⟩⟩
  | ok reply =>
    cases op with
    | create created mode =>
      obtain ⟨-, rfl⟩ := hstep
      obtain ⟨rfl, rfl, hafter⟩ := after_create hsound
      rw [hafter]
      refine ⟨Function.update_self .., fun other _ hother => Function.update_of_ne hother .., Or.inl ⟨?_, nofun⟩⟩
      exact Function.update_of_ne hne.symm ..
    | write written bytes =>
      obtain ⟨-, old, hold, rfl⟩ := hstep
      obtain ⟨content, rfl, rfl, hafter⟩ := after_write hsound
      obtain rfl : old = content := Option.some_injective _ (hold.symm.trans hfits)
      rw [hafter]
      refine ⟨Function.update_self .., fun other _ hother => Function.update_of_ne hother .., Or.inl ⟨?_, nofun⟩⟩
      exact Function.update_of_ne hne.symm ..
    | replace source target =>
      obtain ⟨content', hsource, rfl⟩ := hstep
      obtain ⟨content, rfl, rfl, rfl, hwhole, hafter⟩ := after_replace hsound
      obtain rfl : content' = content := Option.some_injective _ (hsource.symm.trans hfits)
      rw [hafter]
      refine ⟨trivial, fun other hpath hother => ?_, Or.inr ⟨content', hwhole, Function.update_self ..⟩⟩
      exact (Function.update_of_ne hpath ..).trans (Function.update_of_ne hother ..)
    | unlink removed =>
      obtain rfl := hstep
      obtain ⟨content, rfl, rfl, hafter⟩ := after_unlink hsound
      rw [hafter]
      refine ⟨trivial, fun other _ hother => Function.update_of_ne hother .., Or.inl ⟨?_, nofun⟩⟩
      exact Function.update_of_ne hne.symm ..
    | _ =>
      rw [show d' = d from hstep]
      exact ⟨hfits, fun _ _ _ => rfl, Or.inl ⟨rfl, id⟩⟩

/-! ## Any number of processes -/

variable {ι : Type} [DecidableEq ι] {processes : ι → Scraper} {d : Disk} {s s' : Pool ι fileCalls Exc Unit Disk} {i : ι}

/-- The textfile holds the whole scrape of a process that has started. -/
def Whole (path : String) (processes : ι → Scraper) (s : Pool ι fileCalls Exc Unit Disk) : Prop :=
  ∃ j content, s.status j ≠ .idle ∧ wholeOf (processes j) = .ok content ∧ s.world.files path = some content

theorem Whole.move (h : Whole path processes s) {d' : Disk} (hd : d'.files path = s.world.files path)
    {status : Status fileCalls Exc Unit} (hstatus : status ≠ .idle) : Whole path processes (s.move i d' status) := by
  obtain ⟨j, content, hj, hwhole, htextfile⟩ := h
  refine ⟨j, content, ?_, hwhole, hd.trans htextfile⟩
  by_cases hji : j = i
  · rw [hji, Pool.move_same]
    exact hstatus
  · rw [Pool.move_other hji]
    exact hj

/-- What is left of a process, and what it knows. -/
def Knows (path : String) (processes : ι → Scraper) (s : Pool ι fileCalls Exc Unit Disk) (i : ι)
    (p : DurableFiles.FileAction Unit) : Prop :=
  ∃ held, Left (seen path (processes i)) (writeMetrics (processes i).str path (processes i).scrape.metrics) .nothing p held ∧
    held.Fits path (processes i) s.world ∧ (held = .published → Whole path processes s)

/-- Every process keeps to what it knows. The textfile is the one from before as long as no process has returned, or it
is whole. -/
structure Kept (path : String) (processes : ι → Scraper) (d : Disk) (s : Pool ι fileCalls Exc Unit Disk) : Prop where
  running : ∀ i p, s.status i = .running p → Knows path processes s i p
  textfile : (s.world.files path = d.files path ∧ ∀ i, s.status i ≠ .ended (.returned ())) ∨ Whole path processes s

theorem guarantees_left {p : DurableFiles.FileAction Unit} {held : Held}
    (h : Left (seen path process) (writeMetrics process.str path process.scrape.metrics) .nothing p held) :
    p.Guarantees (seen path process) Sound (fun _ held => held = .published) (fun _ _ => True) held :=
  h.guarantees (minds_writeMetrics _ rfl)

/-- What is known of a temporary file that stays as it is. -/
theorem fits_kept {held : Held} {d d' : Disk} (h : held.Fits path process d)
    (hd : d'.files (temporaryOf path process.pid) = d.files (temporaryOf path process.pid)) : held.Fits path process d' := by
  cases held with
  | file content => exact hd.trans h
  | _ => trivial

/-- The end of a process, and its start, change no file. -/
theorem Knows.move {j : ι} {p : DurableFiles.FileAction Unit} (h : Knows path processes s j p)
    {status : Status fileCalls Exc Unit}
    (hstatus : status ≠ .idle) : Knows path processes (s.move i s.world status) j p := by
  obtain ⟨held, hleft, hfits, hpublished⟩ := h
  exact ⟨held, hleft, hfits, fun h => (hpublished h).move rfl hstatus⟩

theorem Kept.step (h : Kept path processes d s) (hstep : Pool.Step (scrapers short path processes) s s')
    (hapart : NumberedApart processes s') : Kept path processes d s' := by
  cases hstep with
  | start i hidle =>
    refine ⟨fun j p hj => ?_, h.textfile.imp (fun ⟨hfile, hnone⟩ => ⟨hfile, fun j => ?_⟩) fun hwhole => hwhole.move rfl nofun⟩
    · by_cases hji : j = i
      · subst hji
        rw [Pool.move_same] at hj
        cases hj
        exact ⟨.nothing, .whole, trivial, nofun⟩
      · rw [Pool.move_other hji] at hj
        exact (h.running j p hj).move nofun
    · by_cases hji : j = i
      · rw [hji, Pool.move_same]
        exact nofun
      · rw [Pool.move_other hji]
        exact hnone j
  | @perform i op k r w hi henv =>
    obtain ⟨held, hleft, hfits, hpublished⟩ := h.running i _ hi
    have hseen : seen path (processes i) held op r (held.after path (processes i) op r) := ⟨rfl, henv.2⟩
    have hsound := (guarantees_left hleft r _ hseen).1
    obtain ⟨hfits', hothers, htextfile⟩ := fits_step hfits henv.1 hsound
    have hkept : ∀ {φ : Prop}, Whole path processes s → (w.files path = s.world.files path ∧ φ ∨
        ∃ content, wholeOf (processes i) = .ok content ∧ w.files path = some content) →
          Whole path processes (s.move i w (.running (k r))) := by
      rintro φ hwhole (⟨hsame, -⟩ | ⟨content, hcontent, hnew⟩)
      · exact hwhole.move hsame nofun
      · exact ⟨i, content, by rw [Pool.move_same]; exact nofun, hcontent, hnew⟩
    refine ⟨fun j p hj => ?_, ?_⟩
    · by_cases hji : j = i
      · subst hji
        rw [Pool.move_same] at hj
        cases hj
        refine ⟨_, hleft.call hseen, hfits', fun hafter => ?_⟩
        rcases htextfile with ⟨hsame, hbefore⟩ | ⟨content, hcontent, hnew⟩
        · exact (hpublished (hbefore hafter)).move hsame nofun
        · exact ⟨j, content, by rw [Pool.move_same]; exact nofun, hcontent, hnew⟩
      · have hrunning := hj
        rw [Pool.move_other hji] at hj
        obtain ⟨held', hleft', hfits'', hpublished'⟩ := h.running j p hj
        -- the temporary file of another process that runs is another file
        have hfile : temporaryOf path (processes j).pid ≠ temporaryOf path (processes i).pid := fun heq =>
          hapart j i p _ hji hrunning (Pool.move_same ..) (temporaryOf_injective heq)
        exact ⟨held', hleft', fits_kept hfits'' (hothers _ (temporaryOf_ne _ _) hfile), fun hafter =>
          hkept (hpublished' hafter) htextfile⟩
    · rcases h.textfile with ⟨hfile, hnone⟩ | hwhole
      · rcases htextfile with ⟨hsame, -⟩ | ⟨content, hcontent, hnew⟩
        · refine Or.inl ⟨hsame.trans hfile, fun j => ?_⟩
          by_cases hji : j = i
          · rw [hji, Pool.move_same]
            exact nofun
          · rw [Pool.move_other hji]
            exact hnone j
        · exact Or.inr ⟨i, content, by rw [Pool.move_same]; exact nofun, hcontent, hnew⟩
      · exact Or.inr (hkept hwhole htextfile)
  | @stop i p o hi hstops =>
    refine ⟨fun j q hj => ?_, ?_⟩
    · by_cases hji : j = i
      · rw [hji, Pool.move_same] at hj
        cases hj
      · rw [Pool.move_other hji] at hj
        exact (h.running j q hj).move nofun
    · rcases h.textfile with ⟨hfile, hnone⟩ | hwhole
      · by_cases hreturned : o = .returned ()
        · obtain ⟨held, hleft, -, hpublished⟩ := h.running i p hi
          subst hreturned
          cases hstops
          exact Or.inr ((hpublished (guarantees_left hleft)).move rfl nofun)
        · refine Or.inl ⟨hfile, fun j => ?_⟩
          by_cases hji : j = i
          · rw [hji, Pool.move_same]
            exact fun heq => hreturned (Status.ended.inj heq)
          · rw [Pool.move_other hji]
            exact hnone j
      · exact Or.inr (hwhole.move rfl nofun)
  | @outside w hout =>
    have hwhole : Whole path processes s → Whole path processes { s with world := w } := by
      rintro ⟨j, content, hj, hcontent, hfile⟩
      exact ⟨j, content, hj, hcontent, hout.1.trans hfile⟩
    refine ⟨fun j p hj => ?_, h.textfile.imp (fun ⟨hfile, hnone⟩ => ⟨hout.1.trans hfile, hnone⟩) hwhole⟩
    obtain ⟨held, hleft, hfits, hpublished⟩ := h.running j p hj
    exact ⟨held, hleft, fits_kept hfits (hout.2 _), fun hafter => hwhole (hpublished hafter)⟩

theorem kept_reached (h : Pool.ReachesWithin (scrapers short path processes) (NumberedApart processes) (.idle d) s) :
    Kept path processes d s := by
  induction h with
  | refl => exact ⟨fun _ _ h => (nomatch h), Or.inl ⟨rfl, nofun⟩⟩
  | tail _ hstep ih => exact ih.step hstep.1 hstep.2

/-! ## Reading -/

/-- The names of all samples, and the keys of their labels. -/
def sampleNames : List String :=
  ["oci_acme_state_available", "oci_acme_compatibility_gate", "oci_acme_certificate_days_remaining",
    "oci_acme_last_renewal_success_timestamp", "oci_acme_last_publication_success_timestamp",
    "oci_acme_last_audit_success_timestamp",
    "oci_acme_oci_versions", "oci_acme_renewal_failures_total", "oci_acme_publication_failures_total",
    "oci_acme_audit_failures_total",
    "oci_acme_rollbacks_total", "oci_acme_http01_preflight_failures_total", "oci_acme_operation_duration_seconds"]

def labelKeys : List String := ["certificate_id", "operation"]

theorem sampleNames_valid : ∀ name ∈ sampleNames, MetricGrammar.isMetricName name = true ∧ startsWith name "oci_acme_" =
    true := by
  decide +kernel

theorem labelKeys_valid : ∀ key ∈ labelKeys, MetricGrammar.isLabelName key = true := by decide +kernel

/-- The sample has one of the names, and labels with these keys. -/
def Named (metric : Metric) : Prop := metric.name ∈ sampleNames ∧ ∀ l ∈ metric.labels, l.1 ∈ labelKeys

theorem named_plain {name : String} (h : name ∈ sampleNames) (value : Option Rat) : Named ⟨name, value, []⟩ :=
  ⟨h, fun _ hl => absurd hl List.not_mem_nil⟩

theorem named_certificateSamples (db : Database) (certificate : CertificateConfig) (daysRemaining : Option Rat) :
    ∀ metric ∈ Metrics.certificateSamples db certificate daysRemaining, Named metric := by
  have hlabel : ∀ l ∈ [("certificate_id", certificate.id)], l.1 ∈ labelKeys := by
    intro l hl
    rw [List.mem_singleton.1 hl]
    exact List.mem_cons_self
  intro metric hmetric
  rcases List.mem_append.1 hmetric with hfixed | hduration
  · simp only [List.mem_cons, List.not_mem_nil, or_false] at hfixed
    rcases hfixed with rfl | rfl | rfl | rfl | rfl | rfl | rfl | rfl | rfl | rfl <;> exact ⟨by simp [sampleNames], hlabel⟩
  · obtain ⟨average, -, rfl⟩ := List.mem_map.1 hduration
    refine ⟨by simp [sampleNames], fun l hl => ?_⟩
    rcases List.mem_append.1 hl with hl | hl
    · exact hlabel l hl
    · rw [List.mem_singleton.1 hl]
      exact List.mem_cons_of_mem _ List.mem_cons_self

theorem named_collectMetrics (config : AppConfig) (db : Database) (daysRemaining : CertificateConfig → Option Rat) :
    ∀ metric ∈ Metrics.collectMetrics config db daysRemaining, Named metric := by
  intro metric hmetric
  rcases List.mem_cons.1 hmetric with rfl | hmetric
  · exact named_plain (by decide) _
  · obtain ⟨certificate, -, hmetric⟩ := List.mem_flatMap.1 hmetric
    exact named_certificateSamples db certificate _ metric hmetric

theorem named_metrics (scrape : Scrape) : ∀ metric ∈ scrape.metrics, Named metric := by
  cases scrape with
  | configured config db daysRemaining => exact named_collectMetrics config db daysRemaining
  | readOnly config database daysRemaining =>
    have hunavailable : ∀ metric ∈ ([⟨"oci_acme_state_available", some 0, []⟩,
        ⟨"oci_acme_compatibility_gate", some (if config.compatibility.liveVerified then 1 else 0), []⟩] : List Metric),
        Named metric := by
      intro metric hmetric
      simp only [List.mem_cons, List.not_mem_nil, or_false] at hmetric
      rcases hmetric with rfl | rfl <;> exact named_plain (by decide) _
    rcases database with _ | _ | db
    · exact hunavailable
    · exact hunavailable
    · intro metric hmetric
      rcases List.mem_cons.1 hmetric with rfl | hmetric
      · exact named_plain (by decide) _
      · exact named_collectMetrics config db daysRemaining metric hmetric

theorem fromUTF8_encodeUtf8 (text : String) : String.fromUTF8? ⟨(encodeUtf8 text).toArray⟩ = some text := by
  unfold encodeUtf8 String.fromUTF8?
  rw [Array.toArray_toList]
  exact dif_pos text.isValidUTF8

/-- Lines one after the other are read back one after the other. -/
theorem sampleLines_join {str : Metric → NumberText} {metrics : List Metric} (hnamed : ∀ metric ∈ metrics, Named metric)
    {lines : List String} (hlines : metrics.mapM (Metric.render str) = .ok lines) {n : Nat}
    (hn : (String.join lines).length ≤ n) :
    sampleLines n (String.join lines).toList = some (metrics.map fun metric => (metric.name, metric.labels, (str metric).1)) := by
  induction metrics generalizing lines n with
  | nil =>
    cases hlines
    cases n <;> rfl
  | cons metric metrics ih =>
    have hname := (sampleNames_valid _ (hnamed metric List.mem_cons_self).1).1
    have hlabels := fun l hl => labelKeys_valid _ ((hnamed metric List.mem_cons_self).2 l hl)
    rw [List.mapM_cons] at hlines
    cases hline : metric.render str with
    | error x =>
      rw [hline] at hlines
      cases hlines
    | ok line =>
      rw [hline] at hlines
      cases hrest : metrics.mapM (Metric.render str) with
      | error x =>
        rw [hrest] at hlines
        cases hlines
      | ok rest =>
        rw [hrest] at hlines
        cases hlines
        obtain ⟨text, htext, -⟩ := render_line hname hlabels hline
        have hread := reads_render hname hlabels hline (String.join rest).toList trivial
        obtain ⟨c, l, hcons⟩ : ∃ c l, line.toList = c :: l := by
          rw [htext]
          cases text <;> exact ⟨_, _, rfl⟩
        rw [String.join_cons, String.length_append] at hn
        have hpos : 0 < line.length := by
          rw [← String.length_toList, hcons]
          exact Nat.succ_pos _
        obtain ⟨n, rfl⟩ : ∃ m, n = m + 1 := ⟨n - 1, by omega⟩
        rw [String.join_cons, String.toList_append, hcons, List.cons_append, sampleLines]
        rw [hcons, List.cons_append] at hread
        rw [hread]
        show (sampleLines n (String.join rest).toList).bind _ = _
        rw [ih (fun other hother => hnamed other (List.mem_cons_of_mem _ hother)) hrest (by omega)]
        rfl

/-- The whole content of a process is read as its samples. -/
theorem readTextfile_whole {content : Bytes} (h : wholeOf process = .ok content) : readTextfile content =
    some process.samples := by
  unfold wholeOf metricsContent at h
  cases hlines : process.scrape.metrics.mapM (Metric.render process.str) with
  | error x =>
    rw [hlines] at h
    cases h
  | ok lines =>
    rw [hlines] at h
    cases h
    unfold readTextfile
    rw [fromUTF8_encodeUtf8]
    exact sampleLines_join (named_metrics process.scrape) hlines (Nat.le_refl _)

end TextfileAux

open TextfileAux

variable {ι : Type} [DecidableEq ι] {short : ShortWrites} {path : String} {processes : ι → Scraper} {d : Disk}
  {s : Pool ι fileCalls Exc Unit Disk}

/-- However the processes are interleaved, wherever their writes are cut short, their calls raise and they are killed,
as long as those that run at the same time have different numbers: the textfile is the one from before, and then no
process has returned, or it is read as the samples of one process, all of them. -/
theorem textfile_is_whole (h : Pool.ReachesWithin (scrapers short path processes) (NumberedApart processes) (.idle d) s) :
    (s.world.files path = d.files path ∧ ∀ i, s.status i ≠ .ended (.returned ())) ∨
      ∃ i content, s.status i ≠ .idle ∧ s.world.files path = some content ∧
      readTextfile content = some (processes i).samples := by
  refine (kept_reached h).textfile.imp id ?_
  rintro ⟨i, content, hi, hwhole, hfile⟩
  exact ⟨i, content, hi, hfile, readTextfile_whole hwhole⟩

/-! ## Two processes -/

namespace TextfileAux

/-- A disk that answers a call where it can take effect. -/
def answer (short : ShortWrites) (pid : Nat) : Handler fileCalls Exc Disk := fun d op =>
  match op with
  | .makeParent .. | .fchown .. | .fsync _ | .close _ => some (.ok (), d)
  | .tokenHex _ => some (.ok "", d)
  | .getpid => some (.ok pid, d)
  | .geteuid | .publisherUid => some (.ok (1 : Nat), d)
  | .create path _ => if d.files path = none then some (.ok (),
      { d with files := Function.update d.files path (some []) }) else none
  | .write path content =>
    (d.files path).map fun old => (.ok (short.stored d.writes content.length),
      ⟨Function.update d.files path (some (old ++ content.take (short.stored d.writes content.length))), d.writes + 1⟩)
  | .replace source target =>
    (d.files source).map fun content =>
      (.ok (), { d with files := Function.update (Function.update d.files source none) target (some content) })
  | .unlink path => some (.ok (), { d with files := Function.update d.files path none })

omit [DecidableEq ι] in
theorem answer_allowed (i : ι) : (answer short (processes i).pid).Allowed ((scrapers short path processes).env i) := by
  intro d op r d' h
  cases op with
  | create created mode =>
    simp only [answer] at h
    split at h
    · rename_i hnone
      cases h
      exact ⟨⟨hnone, rfl⟩, trivial⟩
    · cases h
  | write written bytes =>
    obtain ⟨old, hold, heq⟩ := Option.map_eq_some_iff.1 h
    cases heq
    exact ⟨⟨rfl, old, hold, rfl⟩, trivial⟩
  | replace source target =>
    obtain ⟨content, hsource, heq⟩ := Option.map_eq_some_iff.1 h
    cases heq
    exact ⟨⟨content, hsource, rfl⟩, trivial⟩
  | getpid | unlink | makeParent | tokenHex | geteuid | publisherUid | fchown | fsync | close =>
    cases h
    exact ⟨rfl, by first | rfl | trivial⟩

/-- Every write stores a half. -/
def halves : ShortWrites where
  stored _ given := (given + 1) / 2
  stored_pos _ _ hgiven := by omega
  stored_le _ _ := by omega

/-- The two processes find no database. -/
def twoScrapers (i : Bool) : Scraper where
  pid := cond i 2 1
  str _ := ⟨"0", by decide⟩
  scrape := .readOnly (Sample.config Sample.certificate) none fun _ => none

def textfile : String := "/var/lib/node/oci.prom"

/-- The first process is killed between two of its writes, the second one goes on to its end. -/
def schedule : List (Pool.Move Bool) :=
  [.start false, .start true] ++ List.replicate 5 (.perform false) ++ List.replicate 5 (.perform true) ++ [.kill false] ++
    List.replicate 7 (.perform true) ++ [.stop true]

def played : Option (Pool Bool fileCalls Exc Unit Disk) :=
  Pool.playAll (fun i => answer halves (twoScrapers i).pid) (scrapers halves textfile twoScrapers)
  schedule (.idle ⟨fun _ => none, 0⟩)

def hasReturned : Status fileCalls Exc Unit → Bool
  | .ended (.returned _) => true
  | _ => false

theorem played_reaches {s : Pool Bool fileCalls Exc Unit Disk} (h : played = some s) :
    Pool.ReachesWithin (scrapers halves textfile twoScrapers) (NumberedApart twoScrapers) (.idle ⟨fun _ => none, 0⟩) s := by
  refine (Pool.playAll_reaches (fun i => answer_allowed i) h).within fun s i j p q hij _ _ hpid => hij ?_
  revert hpid
  cases i <;> cases j <;> decide

end TextfileAux

/-- One of two processes was killed while it wrote, the other has returned. -/
theorem textfile_is_whole_two :
    ∃ (s : Pool Bool fileCalls Exc Unit Disk) (i : Bool) (content : Bytes), hasReturned (s.status true) = true ∧
      s.world.files textfile = some content ∧ readTextfile content = some (twoScrapers i).samples := by
  have hend : played.map (fun s => hasReturned (s.status true)) = some true := by decide +kernel
  obtain ⟨s, hs, hreturned⟩ := Option.map_eq_some_iff.1 hend
  have hended : s.status true = .ended (.returned ()) := by
    unfold hasReturned at hreturned
    split at hreturned
    · assumption
    · cases hreturned
  rcases textfile_is_whole (played_reaches hs) with ⟨-, hnone⟩ | ⟨i, content, -, hfile, hread⟩
  · exact absurd hended (hnone true)
  · exact ⟨s, i, content, hreturned, hfile, hread⟩

end OciAcmePublisher
