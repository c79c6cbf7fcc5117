import OciAcmePublisher.DurableFiles

/-!
# Durable files are written in full

Whatever the schedule of short writes, the writers that loop over `os.write` come to an end and leave the whole content where they
return. `_write_challenge` writes once, and leaves what that one write stores.
-/

namespace OciAcmePublisher.DurableFiles

open Effects

variable {short : ShortWrites}

/-- The file holds the content. -/
def Holds (path : String) (content : Bytes) (d : Disk) : Prop := d.files path = some content

/-- Where the action returns, it leaves `Q`. -/
abbrev Leaves {α : Type} (short : ShortWrites) (P : Disk → Prop) (action : FileAction α) (Q : α → Disk → Prop) : Prop :=
  Triple (fileSystem short) P action Q (fun _ _ => True) fun _ => True

/-- Under the schedule the writer comes to an end from every disk, and where it returns, its file holds the whole content. -/
def FileWriter.InFull (short : ShortWrites) (writer : FileWriter) : Prop :=
  ∀ d : Disk, d.writes = 0 → writer.run.Ends (fileSystem short) d ∧
    ∀ d', Exec (fileSystem short) writer.run d (.returned ()) d' → ∃ content, writer.content = .ok content ∧ Holds writer.path content d'

/-! ## One call -/

/-- The calls that leave the files as they are. -/
def leavesFiles : FileCall → Prop
  | .makeParent .. | .tokenHex _ | .getpid | .geteuid | .publisherUid | .fchown .. | .fsync _ | .close _ => True
  | _ => False

/-- What is made of such calls keeps what is known of the disk. -/
theorem leaves_kept {α : Type} {P : Disk → Prop} {action : FileAction α} (h : action.Uses leavesFiles) :
    Leaves short P action fun _ => P := by
  refine (Triple.frame h ?_).conseq (fun _ hd => hd) (fun _ _ hd => hd) (fun _ _ _ => trivial) fun _ _ => trivial
  rintro d op (error | reply) d' hop hd hstep
  · rw [show d' = d from hstep]
    exact hd
  · cases op <;> first | exact hop.elim | (rw [show d' = d from hstep]; exact hd)

theorem leaves_idle {P : Disk → Prop} {op : FileCall} (h : leavesFiles op) : Leaves short P (fileCall op) fun _ => P :=
  leaves_kept (Program.uses_perform.2 h)

theorem uses_ifRoot {action : FileAction Unit} (h : action.Uses leavesFiles) : (ifRoot action).Uses leavesFiles := by
  refine Program.uses_bind (Program.uses_perform.2 trivial) fun euid => ?_
  by_cases heuid : euid = 0
  · simp only [if_pos heuid]
    exact h
  · simp only [if_neg heuid]
    trivial

/-- A call with what it does where it takes effect. -/
theorem leaves_call {P : Disk → Prop} {op : FileCall} {Q : fileCalls.Reply op → Disk → Prop}
    (h : ∀ d reply d', P d → d.Step short op reply d' → Q reply d') : Leaves short P (fileCall op) Q :=
  Triple.perform (fun _ _ => trivial) (fun d reply d' hd hstep => ⟨h d reply d' hd hstep, trivial⟩) fun _ _ _ _ _ => ⟨trivial, trivial⟩

theorem leaves_create (path : String) (mode : Nat) :
    Leaves short (fun d => d.writes = 0) (fileCall (.create path mode)) fun _ d => Holds path [] d ∧ d.writes = 0 := by
  refine leaves_call fun d _ d' hd hstep => ?_
  obtain ⟨-, rfl⟩ := hstep
  exact ⟨Function.update_self path _ _, hd⟩

theorem leaves_replace (source target : String) (content : Bytes) :
    Leaves short (Holds source content) (fileCall (.replace source target)) fun _ => Holds target content := by
  refine leaves_call fun d _ d' hd hstep => ?_
  obtain ⟨content', hsource, rfl⟩ := hstep
  have hsame : content' = content := Option.some_injective _ (hsource.symm.trans hd)
  rw [hsame]
  exact Function.update_self target _ _

/-! ## The loop -/

/-- Where the loop returns, what was to be written from the offset on has been written: each round adds what its write stores. -/
theorem leaves_writeLoop (path : String) (content : Bytes) (rounds offset : Nat) :
    Leaves short (Holds path (content.take offset)) (writeLoop path content rounds offset) fun _ => Holds path content := by
  have hwhole : ∀ {offset}, ¬offset < content.length → ∀ d, Holds path (content.take offset) d → Holds path content d := by
    intro offset hoffset d hd
    rwa [List.take_of_length_le (Nat.not_lt.1 hoffset)] at hd
  induction rounds generalizing offset with
  | zero =>
    unfold writeLoop
    by_cases hoffset : offset < content.length
    · rw [if_pos hoffset]
      exact Triple.diverge fun _ _ => trivial
    · rw [if_neg hoffset]
      exact Triple.ret (hwhole hoffset) fun _ _ => trivial
  | succ rounds ih =>
    unfold writeLoop
    by_cases hoffset : offset < content.length
    · rw [if_pos hoffset]
      refine Triple.bind (R := fun n => Holds path (content.take (offset + n))) (leaves_call fun d n d' hd hstep => ?_) fun n => ih _
      obtain ⟨-, old, hold, rfl⟩ := hstep
      have hsame : old = content.take offset := Option.some_injective _ (hold.symm.trans hd)
      have hfile : (Function.update d.files path (some (old ++ (content.drop offset).take n))) path =
          some (content.take (offset + n)) := by
        rw [Function.update_self, hsame, List.take_add]
      exact hfile
    · rw [if_neg hoffset]
      exact Triple.ret (hwhole hoffset) fun _ _ => trivial

/-- The loop comes to an end within the bytes that are left, for every write stores at least one of them. -/
theorem ends_writeLoop (path : String) (content : Bytes) {rounds offset : Nat} (hrounds : content.length ≤ offset + rounds) (d : Disk) :
    (writeLoop path content rounds offset).Ends (fileSystem short) d := by
  induction rounds generalizing offset d with
  | zero =>
    have hoffset : ¬offset < content.length := Nat.not_lt.2 hrounds
    rw [writeLoop, if_neg hoffset]
    trivial
  | succ rounds ih =>
    unfold writeLoop
    by_cases hoffset : offset < content.length
    · rw [if_pos hoffset]
      have henough : ∀ n : Nat, 0 < n → content.length ≤ offset + n + rounds := fun n hn => by omega
      refine Program.ends_bind (Program.Halts.ends Program.halts_perform d) fun n d' hwrite => ih (henough n ?_) d'
      have hstored : n = short.stored d.writes (content.drop offset).length := (Exec.performed hwrite).1
      have hgiven : 0 < (content.drop offset).length := List.length_drop ▸ Nat.sub_pos_of_lt hoffset
      exact lt_of_lt_of_eq (short.stored_pos d.writes _ hgiven) hstored.symm
    · rw [if_neg hoffset]
      trivial

/-! ## What the writers have in common -/

theorem halts_ifRoot {action : FileAction Unit} (h : action.Halts) : (ifRoot action).Halts := by
  refine Program.halts_bind Program.halts_perform fun euid => ?_
  by_cases heuid : euid = 0
  · simp only [if_pos heuid]
    exact h
  · simp only [if_neg heuid]
    trivial

theorem ends_call (op : FileCall) (d : Disk) : (fileCall op).Ends (fileSystem short) d := Program.Halts.ends Program.halts_perform d

/-- The loop from the beginning of an empty file, and the `fsync` behind it. -/
def fill (path : String) (content : Bytes) : FileAction Unit := do
  writeLoop path content content.length 0
  fileCall (.fsync path)

theorem leaves_fill (path : String) (content : Bytes) : Leaves short (Holds path []) (fill path content) fun _ => Holds path content :=
  Triple.bind (leaves_writeLoop path content _ 0) fun _ => leaves_idle trivial

theorem ends_fill (path : String) (content : Bytes) (d : Disk) : (fill path content).Ends (fileSystem short) d :=
  Program.ends_bind (ends_writeLoop path content (Nat.le_add_left _ _) d) fun _ d _ => ends_call _ d

/-- Closing the file keeps what it holds. -/
theorem leaves_closed {P Q : Disk → Prop} {body : FileAction Unit} (path : String) (h : Leaves short P body fun _ => Q) :
    Leaves short P (body.ensure (fileCall (.close path))) fun _ => Q := by
  refine Triple.ensure h (fun _ => leaves_idle trivial) (fun _ => ?_) (fun _ _ _ => trivial) fun _ _ _ => trivial
  exact (Triple.unconstrained _).conseq (fun _ _ => trivial) (fun _ _ _ => trivial) (fun _ _ _ => trivial) fun _ _ => trivial

/-! ## The writers -/

theorem writeNew_inFull (expectedOwnerUid : Nat) (path : String) (content : Bytes) (mode : Nat) :
    (FileWriter.writeNew expectedOwnerUid path content mode).InFull short := by
  refine fun d hd => ⟨?_, fun d' hx => ⟨content, rfl, ?_⟩⟩
  · refine Program.ends_bind (ends_call _ d) fun _ d _ => Program.ends_ensure ?_ fun d => ends_call _ d
    exact Program.ends_bind (Program.Halts.ends (halts_ifRoot Program.halts_perform) d) fun _ d _ => ends_fill path content d
  · have hbody : Leaves short (Holds path []) ((ifRoot (fileCall (.fchown path expectedOwnerUid))).bind fun _ => fill path content)
        fun _ => Holds path content :=
      Triple.bind (leaves_kept (uses_ifRoot (Program.uses_perform.2 trivial))) fun _ => leaves_fill path content
    have hwriter : Leaves short (fun d => d.writes = 0) (FileWriter.writeNew expectedOwnerUid path content mode).run
        fun _ => Holds path content :=
      Triple.bind (leaves_create path mode) fun _ => (leaves_closed path hbody).pre fun _ h => h.1
    exact hwriter.returned hd hx

theorem accountKey_inFull (path : String) (pem : Bytes) : (FileWriter.accountKey path pem).InFull short := by
  refine fun d hd => ⟨?_, fun d' hx => ⟨pem, rfl, ?_⟩⟩
  · refine Program.ends_bind (ends_call _ d) fun _ d _ => Program.ends_bind (ends_call _ d) fun _ d _ => ?_
    exact Program.ends_ensure (ends_fill path pem d) fun d => ends_call _ d
  · have hwriter : Leaves short (fun d => d.writes = 0) (FileWriter.accountKey path pem).run fun _ => Holds path pem := by
      refine Triple.bind (leaves_idle trivial) fun _ => Triple.bind (leaves_create path _) fun _ => ?_
      exact (leaves_closed path (leaves_fill path pem)).pre fun _ h => h.1
    exact hwriter.returned hd hx

/-- The content may fail to be made; where it is made it is written. -/
theorem leaves_filled (path : String) (made : Except Exc Bytes) :
    Leaves short (Holds path []) ((ofExcept made).bind (fill path)) fun _ d => ∃ content, made = .ok content ∧ Holds path content d := by
  cases made with
  | error error => exact Triple.raise (fun _ _ => trivial) fun _ _ => trivial
  | ok content => exact (leaves_fill path content).post fun _ _ hd => ⟨content, rfl, hd⟩

theorem writeMetrics_inFull (str : Metric → NumberText) (path : String) (metrics : List Metric) :
    (FileWriter.writeMetrics str path metrics).InFull short := by
  refine fun d hd => ⟨?_, fun d' hx => ?_⟩
  · refine Program.ends_bind (ends_call _ d) fun _ d _ => Program.ends_bind (ends_call _ d) fun pid d _ => ?_
    refine Program.ends_bind (ends_call _ d) fun _ d _ => Program.ends_bind (Program.ends_attempt ?_) fun written d _ => ?_
    · cases metricsContent str metrics with
      | error error => trivial
      | ok content => exact ends_fill _ content d
    · cases written with
      | error error =>
        exact Program.ends_bind (ends_call _ d) fun _ d _ => Program.ends_bind (ends_call _ d) fun _ _ _ => trivial
      | ok _ => exact Program.ends_bind (ends_call _ d) fun _ d _ => ends_call _ d
  · have hwriter : Leaves short (fun d => d.writes = 0) (FileWriter.writeMetrics str path metrics).run
        fun _ d => ∃ content, metricsContent str metrics = .ok content ∧ Holds path content d := by
      refine Triple.bind (leaves_idle trivial) fun _ => ?_
      refine Triple.bind (leaves_idle trivial) fun pid => ?_
      refine Triple.bind (leaves_create _ _) fun _ => ?_
      refine Triple.bind (Triple.attempt ((leaves_filled _ _).pre fun _ h => h.1) (fun _ _ _ => trivial) fun _ _ _ => trivial) ?_
      rintro (error | _)
      · refine Triple.bind (leaves_idle trivial) fun _ => ?_
        exact Triple.bind (Triple.unconstrained _) fun _ => Triple.raise (fun _ _ => trivial) fun _ _ => trivial
      · refine Triple.of_exists fun content => Triple.bind (leaves_idle trivial) fun _ => ?_
        refine (Triple.assume fun hmade => ?_).pre fun _ hd => ⟨hd.2, hd.1⟩
        exact (leaves_replace _ path content).post fun _ _ hd => ⟨content, hmade, hd⟩
    exact hwriter.returned hd hx

theorem halts_writeChallenge (path : String) (content : Bytes) : (writeChallenge path content).Halts := by
  refine Program.halts_bind Program.halts_perform fun _ => Program.halts_bind Program.halts_perform fun suffix => ?_
  refine Program.halts_bind Program.halts_perform fun _ => Program.halts_bind ?_ fun _ => Program.halts_perform
  refine Program.halts_ensure (Program.halts_bind Program.halts_perform fun _ => ?_) Program.halts_perform
  refine Program.halts_bind (halts_ifRoot ?_) fun _ => Program.halts_perform
  exact Program.halts_bind Program.halts_perform fun _ => Program.halts_perform

/-- Where its one write stores everything, the challenge is written in full. -/
theorem writeChallenge_inFull {path : String} {content : Bytes} (hstored : short.stored 0 content.length = content.length) :
    (FileWriter.writeChallenge path content).InFull short := by
  refine fun d hd => ⟨?_, fun d' hx => ⟨content, rfl, ?_⟩⟩
  · exact Program.Halts.ends (halts_writeChallenge path content) d
  · have hwrite : ∀ temporary, Leaves short (fun d => Holds temporary [] d ∧ d.writes = 0) (fileCall (.write temporary content))
        fun _ => Holds temporary content := by
      refine fun temporary => leaves_call fun d n d' hd hstep => ?_
      obtain ⟨rfl, old, hold, rfl⟩ := hstep
      have hsame : old = [] := Option.some_injective _ (hold.symm.trans hd.1)
      have hfile : (Function.update d.files temporary (some (old ++ content.take (short.stored d.writes content.length)))) temporary =
          some content := by
        rw [Function.update_self, hsame, hd.2, hstored, List.take_length, List.nil_append]
      exact hfile
    have hwriter : Leaves short (fun d => d.writes = 0) (FileWriter.writeChallenge path content).run fun _ => Holds path content := by
      refine Triple.bind (leaves_idle trivial) fun _ => ?_
      refine Triple.bind (leaves_idle trivial) fun suffix => ?_
      refine Triple.bind (leaves_create _ _) fun _ => ?_
      refine Triple.bind (leaves_closed _ ?_) fun _ => leaves_replace _ _ content
      refine Triple.bind (hwrite _) fun _ => Triple.bind (leaves_kept (uses_ifRoot ?_)) fun _ => leaves_idle trivial
      exact Program.uses_bind (Program.uses_perform.2 trivial) fun _ => Program.uses_perform.2 trivial
    exact hwriter.returned hd hx

theorem exec_answered {α : Type} {op : FileCall} {k : Except Exc (fileCalls.Reply op) → FileAction α} {d d₁ d' : Disk}
    {o : Outcome Exc α} (reply : fileCalls.Reply op) (hstep : d.Step short op reply d₁)
    (hrest : Exec (fileSystem short) (k (.ok reply)) d₁ o d') : Exec (fileSystem short) (.call op k) d o d' :=
  .call (r := .ok reply) hstep hrest

/-- Where no call raises, the challenge is what its one write has stored. -/
theorem exec_writeChallenge (short : ShortWrites) (path : String) (content : Bytes) :
    ∃ d', Exec (fileSystem short) (writeChallenge path content) ⟨fun _ => none, 0⟩ (.returned ()) d' ∧
      Holds path (content.take (short.stored 0 content.length)) d' := by
  refine ⟨?disk, ?run, ?held⟩
  case run =>
    refine exec_answered () rfl (exec_answered "" rfl (exec_answered () ⟨rfl, rfl⟩ ?_))
    refine exec_answered (short.stored 0 content.length) ⟨rfl, [], Function.update_self _ _ _, rfl⟩ ?_
    refine exec_answered (1 : Nat) rfl (exec_answered () rfl (exec_answered () rfl ?_))
    refine exec_answered () ⟨_, Function.update_self _ _ _, rfl⟩ ?_
    exact .ret () _
  case held => exact Function.update_self path _ _

/-- Under every schedule of short writes, a writer comes to an end and leaves its whole content where it returns, `_write_challenge`
exactly where its one write stores all it is given. -/
theorem written_in_full_iff (short : ShortWrites) (writer : FileWriter) :
    writer.InFull short ↔
      ∀ path content, writer = .writeChallenge path content → short.stored 0 content.length = content.length := by
  constructor
  · rintro hfull path content rfl
    obtain ⟨d', hx, hd'⟩ := exec_writeChallenge short path content
    obtain ⟨content', hcontent, hwhole⟩ := (hfull ⟨fun _ => none, 0⟩ rfl).2 d' hx
    cases hcontent
    have htake : content.take (short.stored 0 content.length) = content := Option.some_injective _ (hd'.symm.trans hwhole)
    have hlength := congrArg List.length htake
    rw [List.length_take] at hlength
    exact (min_eq_left (short.stored_le 0 content.length)).symm.trans hlength
  · intro hstored
    cases writer with
    | writeNew expectedOwnerUid path content mode => exact writeNew_inFull expectedOwnerUid path content mode
    | accountKey path pem => exact accountKey_inFull path pem
    | writeMetrics str path metrics => exact writeMetrics_inFull str path metrics
    | writeChallenge path content => exact writeChallenge_inFull (hstored path content rfl)

/-- Every write stores one byte. -/
def oneByteWrites : ShortWrites where
  stored _ given := min given 1
  stored_pos _ _ hgiven := Nat.lt_min.2 ⟨hgiven, Nat.one_pos⟩
  stored_le _ _ := Nat.min_le_left _ _

/-- A challenge of two bytes is cut after the first. -/
theorem written_in_full_false : ¬(FileWriter.writeChallenge "/srv/token" [104, 105]).InFull oneByteWrites := by
  intro hfull
  obtain ⟨d', hx, hd'⟩ := exec_writeChallenge oneByteWrites "/srv/token" [104, 105]
  obtain ⟨content', hcontent, hwhole⟩ := (hfull ⟨fun _ => none, 0⟩ rfl).2 d' hx
  cases hcontent
  have hcut : some [104] = some ([104, 105] : Bytes) := hd'.symm.trans hwhole
  cases hcut

end OciAcmePublisher.DurableFiles
