import OciAcmePublisher.Lemmas.CertificateStore
import OciAcmePublisher.Lemmas.Footprints
import OciAcmePublisher.Theorems.IssuedMaterial
import OciAcmePublisher.Theorems.Partition

/-!
# Back-to-back issuances

An issuance reuses the stored generation while it is not due. What an issuance returns is what the store loads afterwards, so a second
one at the same instant reuses it, unless it is due as soon as it is issued: the configuration admits windows as long as the lifetime
of a certificate.
-/

namespace OciAcmePublisher

open Effects NativeAcmeService NativeCertificateStore

/-- The host of one certificate: its directory in the store, and the clock. -/
structure Host where
  store : LineageTree
  clock : Instant

/-- The part the store has in an operation of the publisher. -/
def storeProgram (Γ : Ctx) (storeConfig : StoreConfig) : (op : Op) → Option (StoreAction op.Reply)
  | .lineageExists _ => some (store (.isSymlink "current"))
  | .loadLineage _ => some (load Γ storeConfig)
  | .commitLineage _ g => some (commit Γ storeConfig g.leafPem g.chainPem g.privateKeyPem g.name)
  | _ => none

/-- The clock answers with its time. -/
def Host.Shows (w : Host) : (op : Op) → Except Exc op.Reply → Prop
  | .now, answer => answer = .ok w.clock
  | _, _ => True

/-- The publisher on its host: the operations of the store are its programs, nothing else touches it, and time passes by
`elapses`. -/
def hosting (Γ : Ctx) (storeConfig : StoreConfig) (euid : Nat) (faults : StoreOp → Exc → Prop)
    (elapses : Instant → Instant → Prop) : Env publisher Exc Host :=
  fun w op answer w' => elapses w.clock w'.clock ∧ w.Shows op answer ∧
    match storeProgram Γ storeConfig op with
    | some p => Exec (disk euid faults) p w.store (Outcome.ofExcept answer) w'.store
    | none => w'.store = w.store

/-- No operation of the store fails, and no time passes. -/
abbrev standing (Γ : Ctx) (storeConfig : StoreConfig) (euid : Nat) : Env publisher Exc Host :=
  hosting Γ storeConfig euid (fun _ _ => False) fun before after => after = before

/-- The operation places an order at the CA. -/
def Op.orders : Op → Bool
  | .newOrder .. => true
  | _ => false

namespace BackToBackAux

variable {Γ : Ctx} {config : AppConfig} {certificate : CertificateConfig} {storeConfig : StoreConfig} {euid : Nat}
  {faults : StoreOp → Exc → Prop} {elapses : Instant → Instant → Prop} {force : Bool} {material : LineageMaterial}

/-! ### What an issuance returns is stored -/

/-- The store loads the material. -/
abbrev Stored (Γ : Ctx) (storeConfig : StoreConfig) (material : LineageMaterial) (w : Host) : Prop :=
  w.store.loaded Γ storeConfig = some material

/-- An operation that runs a program of the store. -/
theorem perform_store {op : Op} {p : StoreAction op.Reply} (hop : storeProgram Γ storeConfig op = some p) {P : Host → Prop}
    {Q : op.Reply → LineageTree → Prop} {E : Exc → LineageTree → Prop} {C : LineageTree → Prop}
    (h : ∀ w, P w → Triple (disk euid faults) (· = w.store) p Q E C) :
    Triple (hosting Γ storeConfig euid faults elapses) P (perform op)
      (fun a w' => Q a w'.store ∧ ∃ w, P w ∧ elapses w.clock w'.clock) (fun x w' => E x w'.store) fun _ => True := by
  refine Triple.perform (fun _ _ => trivial) ?_ ?_
  · rintro w a w' hw ⟨helapsed, -, hrun⟩
    rw [hop] at hrun
    exact ⟨⟨h w hw _ rfl _ _ hrun, w, hw, helapsed⟩, trivial⟩
  · rintro w x w' hw ⟨-, -, hrun⟩
    rw [hop] at hrun
    exact ⟨h w hw _ rfl _ _ hrun, trivial⟩

/-- What is no business of the store leaves it as it is. -/
theorem store_frame {α : Type} {p : Action α} (hp : p.Uses fun op => storeProgram Γ storeConfig op = none)
    {I : LineageTree → Prop} :
    Triple (hosting Γ storeConfig euid faults elapses) (fun w => I w.store) p (fun _ w => I w.store) (fun _ w => I w.store)
      fun w => I w.store := by
  refine Triple.frame hp ?_
  rintro w op answer w' hop hw ⟨-, -, hstore⟩
  rw [hop] at hstore
  exact hstore ▸ hw

theorem perform_load (id : String) :
    Triple (hosting Γ storeConfig euid faults elapses) (fun _ => True) (perform (.loadLineage id))
      (fun loaded w => Stored Γ storeConfig loaded w) (fun _ _ => True) fun _ => True := by
  have hload : ∀ w : Host, True → Triple (disk euid faults) (· = w.store) (load Γ storeConfig)
      (fun loaded t => t.loaded Γ storeConfig = some loaded) (fun _ _ => True) fun _ => True := by
    intro w _
    refine StoreAux.load_spec.conseq (fun _ ht => ht) ?_ (fun _ _ _ => trivial) fun _ _ => trivial
    rintro loaded t ⟨rfl, hloaded⟩
    exact hloaded
  have hop : storeProgram Γ storeConfig (.loadLineage id) = some (load Γ storeConfig) := rfl
  exact (perform_store hop hload).conseq (fun _ _ => trivial) (fun _ _ hw => hw.1) (fun _ _ _ => trivial) fun _ _ => trivial

/-- A commit ends with a load. -/
theorem perform_commit (id : String) (g : Generation) :
    Triple (hosting Γ storeConfig euid faults elapses) (fun _ => True) (perform (.commitLineage id g))
      (fun committed w => Stored Γ storeConfig committed w) (fun _ _ => True) fun _ => True := by
  have hcommit : ∀ w : Host, True → Triple (disk euid faults) (· = w.store)
      (commit Γ storeConfig g.leafPem g.chainPem g.privateKeyPem g.name)
      (fun committed t => t.loaded Γ storeConfig = some committed) (fun _ _ => True) fun _ => True := by
    intro w _
    refine Triple.last _ fun _ => Triple.last _ fun _ => Triple.last _ fun found => ?_
    split
    · exact Triple.raise (fun _ _ => trivial) fun _ _ => trivial
    · refine Triple.last _ fun _ => Triple.last _ fun _ => Triple.last _ fun _ => ?_
      refine (Triple.of_exists (P := fun before t => t = before) fun before => StoreAux.load_spec.conseq (fun _ ht => ht) ?_
        (fun _ _ _ => trivial) fun _ _ => trivial).pre fun t _ => ⟨t, rfl⟩
      rintro committed t ⟨rfl, hloaded⟩
      exact hloaded
  have hop : storeProgram Γ storeConfig (.commitLineage id g) =
      some (commit Γ storeConfig g.leafPem g.chainPem g.privateKeyPem g.name) := rfl
  exact (perform_store hop hcommit).conseq (fun _ _ => trivial) (fun _ _ hw => hw.1) (fun _ _ _ => trivial) fun _ _ => trivial

theorem loadOptional_stores :
    Triple (hosting Γ storeConfig euid faults elapses) (fun _ => True) (loadOptional certificate)
      (fun current w => ∀ material, current = some material → Stored Γ storeConfig material w) (fun _ _ => True)
      fun _ => True := by
  refine Triple.last _ fun found => ?_
  split
  · exact Triple.ret (fun _ _ _ h => by cases h) fun _ _ => trivial
  · refine Triple.bind (perform_load _) fun loaded => Triple.ret ?_ fun _ _ => trivial
    rintro w hw _ ⟨⟩
    exact hw

theorem reusable_stores (current : Option LineageMaterial) :
    Triple (hosting Γ storeConfig euid faults elapses)
      (fun w => ∀ material, current = some material → Stored Γ storeConfig material w) (issue.reusable config force current)
      (fun reused w => ∀ material, reused = some material → Stored Γ storeConfig material w) (fun _ _ => True) fun _ => True := by
  cases current with
  | none => exact Triple.ret (fun _ _ _ h => by cases h) fun _ _ => trivial
  | some stored =>
    unfold issue.reusable
    simp only
    split
    · exact Triple.ret (fun _ _ _ h => by cases h) fun _ _ => trivial
    · have hnow : (perform .now).Uses fun op => storeProgram Γ storeConfig op = none := Program.uses_perform.2 rfl
      refine Triple.bind ((store_frame hnow (I := fun t => t.loaded Γ storeConfig = some stored)).conseq
        (fun w hw => hw stored rfl) (fun _ _ hw => hw) (fun _ _ _ => trivial) fun _ _ => trivial) fun now => ?_
      refine Triple.ret (fun w hw reused hreused => ?_) fun _ _ => trivial
      split at hreused
      · cases hreused
      · cases hreused
        exact hw

theorem finalize_stores (privateKey : PrivateKey) (order : Order) :
    Triple (hosting Γ storeConfig euid faults elapses) (fun _ => True) (finalize Γ config certificate privateKey order)
      (fun committed w => Stored Γ storeConfig committed w) (fun _ _ => True) fun _ => True :=
  Triple.last _ fun _ => Triple.last _ fun _ => Triple.last _ fun _ => Triple.last _ fun _ => Triple.last _ fun _ =>
    Triple.last _ fun _ => perform_commit _ _

theorem runOrder_stores (privateKey : PrivateKey) :
    Triple (hosting Γ storeConfig euid faults elapses) (fun _ => True) (runOrder Γ config certificate privateKey)
      (fun ended w => ∀ material, ended.1 = .ok material → Stored Γ storeConfig material w) (fun _ _ => True) fun _ => True := by
  refine Triple.last _ fun placed => ?_
  cases placed with
  | error x => exact Triple.ret (fun _ _ _ h => by cases h) fun _ _ => trivial
  | ok order =>
    refine Triple.last _ fun answered => ?_
    obtain ⟨outcome, paths⟩ := answered
    cases outcome with
    | error x => exact Triple.ret (fun _ _ _ h => by cases h) fun _ _ => trivial
    | ok _ =>
      refine Triple.bind (Triple.attempt (finalize_stores privateKey order) (fun _ _ _ => trivial) fun _ _ _ => trivial)
        fun committed => Triple.ret ?_ fun _ _ => trivial
      rintro w hw material hcommitted
      cases hcommitted
      exact hw

/-- What an issuance returns is what the store loads then. -/
theorem issue_stores :
    Triple (hosting Γ storeConfig euid faults elapses) (fun _ => True) (issue Γ config certificate force)
      (fun issued w => Stored Γ storeConfig issued w) (fun _ _ => True) fun _ => True := by
  refine Triple.bind loadOptional_stores fun current => Triple.bind (reusable_stores current) fun reused => ?_
  cases reused with
  | some material => exact Triple.ret (fun w hw => hw material rfl) fun _ _ => trivial
  | none =>
    refine Triple.last _ fun privateKey => Triple.bind (runOrder_stores privateKey) fun ended => ?_
    obtain ⟨outcome, paths⟩ := ended
    refine Triple.bind ((store_frame (uses_removeChallenges (fun _ => rfl) paths) (I := fun t => ∀ material, outcome = .ok material →
      t.loaded Γ storeConfig = some material)).conseq (fun _ hw => hw) (fun _ _ hw => hw) (fun _ _ _ => trivial)
        fun _ _ => trivial) fun _ => ?_
    refine Triple.ofExcept (fun issued w hissued hw => ?_) (fun _ _ _ => trivial) fun _ _ => trivial
    cases outcome with
    | error x => cases hissued
    | ok _ =>
      cases hissued
      exact hw issued rfl

/-! ### The second issuance -/

variable {w : Host}

/-- A program of the store that changes nothing and does not fail, while no time passes. -/
theorem perform_standing {op : Op} {p : StoreAction op.Reply} (hop : storeProgram Γ storeConfig op = some p)
    {Q : op.Reply → Prop} (h : Triple (disk euid fun _ _ => False) (· = w.store) p (fun a t => t = w.store ∧ Q a)
      (fun _ _ => False) fun _ => True) :
    Triple (standing Γ storeConfig euid) (· = w) (perform op) (fun a w' => w' = w ∧ Q a) (fun _ _ => False) fun _ => True := by
  have hwhere : ∀ w', w' = w → Triple (disk euid fun _ _ => False) (· = w'.store) p (fun a t => t = w.store ∧ Q a)
      (fun _ _ => False) fun _ => True := by
    rintro _ rfl
    exact h
  refine (perform_store hop hwhere).conseq (fun _ hw => hw) ?_ (fun _ _ hw => hw) fun _ _ => trivial
  rintro a ⟨t, clock⟩ ⟨⟨rfl, ha⟩, _, rfl, rfl⟩
  exact ⟨rfl, ha⟩

theorem loadOptional_standing (hstored : Stored Γ storeConfig material w) :
    Triple (standing Γ storeConfig euid) (· = w) (loadOptional certificate)
      (fun current w' => w' = w ∧ current = some material) (fun _ _ => False) fun _ => True := by
  have hlink : ∃ target, w.store.entries "current" = some (.link target) := by
    unfold Stored LineageTree.loaded at hstored
    split at hstored
    · rename_i path hcurrent
      exact ⟨_, hcurrent⟩
    · cases hstored
  have hexists : Triple (disk euid fun _ _ => False) (· = w.store) (store (.isSymlink "current"))
      (fun found t => t = w.store ∧ found = true) (fun _ _ => False) fun _ => True := by
    refine (StoreAux.store_reads rfl).conseq (fun _ ht => ht) ?_ ?_ fun _ _ => trivial
    · rintro found t ⟨rfl, -, hfound⟩
      exact ⟨rfl, hfound.2 hlink⟩
    · rintro x t ⟨-, ⟨_, _, hfault⟩ | ⟨-, hnone⟩⟩
      · exact hfault
      · exact hnone true ⟨rfl, ⟨fun _ => hlink, fun _ => rfl⟩⟩
  have hload : Triple (disk euid fun _ _ => False) (· = w.store) (load Γ storeConfig)
      (fun loaded t => t = w.store ∧ loaded = material) (fun _ _ => False) fun _ => True := by
    refine StoreAux.load_spec.conseq (fun _ ht => ht) ?_ ?_ fun _ _ => trivial
    · rintro loaded t ⟨rfl, hloaded⟩
      rw [hstored] at hloaded
      cases hloaded
      exact ⟨rfl, rfl⟩
    · rintro x t ⟨-, ⟨_, _, hfault⟩ | ⟨hnone, -⟩⟩
      · exact hfault
      · rw [hstored] at hnone
        cases hnone
  have hexistsOp : storeProgram Γ storeConfig (.lineageExists certificate.id) = some (store (.isSymlink "current")) := rfl
  have hloadOp : storeProgram Γ storeConfig (.loadLineage certificate.id) = some (load Γ storeConfig) := rfl
  refine Triple.bind (perform_standing hexistsOp hexists) fun found => ?_
  refine Triple.pre (P := fun w' => w' = w ∧ found = true) ?_ fun _ hw => hw
  refine Triple.assume ?_
  rintro rfl
  rw [if_neg (by simp)]
  refine Triple.bind (perform_standing hloadOp hload) fun loaded => Triple.ret ?_ fun _ _ => trivial
  rintro _ ⟨rfl, rfl⟩
  exact ⟨rfl, rfl⟩

/-- The stored generation is reused where it is not due. -/
theorem reusable_standing :
    Triple (standing Γ storeConfig euid) (· = w) (issue.reusable config false (some material))
      (fun reused w' => w' = w ∧ reused = if renewalDue config material w.clock then none else some material)
      (fun _ _ => False) fun _ => True := by
  unfold issue.reusable
  simp only
  rw [if_neg (by simp)]
  refine Triple.bind (R := fun now w' => w' = w ∧ now = w.clock) ?_ fun now => Triple.ret ?_ fun _ _ => trivial
  · refine Triple.perform (fun _ _ => trivial) ?_ ?_
    · rintro _ now ⟨t, clock⟩ rfl ⟨rfl, hshows, rfl⟩
      cases hshows
      exact ⟨⟨rfl, rfl⟩, trivial⟩
    · rintro _ x _ rfl ⟨-, hshows, -⟩
      cases hshows
  · rintro _ ⟨rfl, rfl⟩
    exact ⟨rfl, rfl⟩

/-- An order is among what was performed. -/
abbrev Ordered (t : List (Event publisher Exc)) : Prop := ∃ e ∈ t, e.op.orders = true

theorem lasting_ordered : Lasting Ordered := by
  rintro t e ⟨placed, hmem, horders⟩
  exact ⟨placed, List.mem_append_left _ hmem, horders⟩

theorem placeOrder_orders (privateKey : PrivateKey) :
    Triple anyAnswer (fun _ => True) (placeOrder Γ config certificate privateKey) (fun _ => Ordered) (fun _ _ => True)
      fun _ => True := by
  refine Triple.last _ fun _ => Triple.bind (R := fun _ => Ordered) ?_ fun order => ?_
  · refine (perform_mem (S := publisher) (.newOrder _ _)).conseq (fun _ _ => trivial) ?_ (fun _ _ _ => trivial) fun _ _ => trivial
    intro order t hmem
    exact ⟨_, hmem, rfl⟩
  · simp only
    split
    · exact Triple.ret (fun _ ht => ht) fun _ _ => trivial
    · exact Triple.raise (fun _ _ => trivial) fun _ _ => trivial

/-- An issuance that reuses nothing returns after it has placed an order. -/
theorem renewal_orders (current : Option LineageMaterial) :
    Triple anyAnswer (fun _ => True) ((certificateKey config certificate current).bind fun privateKey =>
        (runOrder Γ config certificate privateKey).bind fun ended =>
          (removeChallenges ended.2).bind fun _ => ofExcept (ended.1.mapError orderFailure))
      (fun _ => Ordered) (fun _ _ => True) fun _ => True := by
  have horder : ∀ privateKey, Triple anyAnswer (fun _ => True) (runOrder Γ config certificate privateKey)
      (fun ended t => ∀ material, ended.1 = .ok material → Ordered t) (fun _ _ => True) fun _ => True := by
    intro privateKey
    refine Triple.bind (Triple.attempt (placeOrder_orders privateKey) (fun _ _ _ => trivial) fun _ _ _ => trivial) fun placed => ?_
    cases placed with
    | error x => exact Triple.ret (fun _ _ _ h => by cases h) fun _ _ => trivial
    | ok order =>
      exact (lasting_ordered.triple _).conseq (fun _ ht => ht) (fun _ _ ht _ _ => ht) (fun _ _ _ => trivial) fun _ _ => trivial
  refine Triple.last _ fun privateKey => Triple.bind (horder privateKey) fun ended => ?_
  have hlasting : Lasting fun t : List (Event publisher Exc) => ∀ material, ended.1 = .ok material → Ordered t :=
    fun t e h material hended => lasting_ordered t e (h material hended)
  refine Triple.bind ((hlasting.triple (removeChallenges ended.2)).conseq (fun _ ht => ht) (fun _ _ ht => ht)
    (fun _ _ _ => trivial) fun _ _ => trivial) fun _ => ?_
  refine Triple.ofExcept (fun issued t hissued ht => ?_) (fun _ _ _ => trivial) fun _ _ => trivial
  cases hended : ended.1 with
  | error x =>
    rw [hended] at hissued
    cases hissued
  | ok material => exact ht material hended

/-- Nothing that was performed is an order. -/
abbrev Unordered (t : List (Event publisher Exc)) : Prop := ∀ e ∈ t, e.op.orders = false

theorem unordered_frame {α : Type} {p : Action α} (hp : p.Uses (Op.orders · = false)) :
    Triple anyAnswer Unordered p (fun _ => Unordered) (fun _ => Unordered) Unordered := by
  refine Triple.frame hp ?_
  rintro t op answer _ hop ht rfl e he
  rcases List.mem_append.1 he with he | he
  · exact ht e he
  · rw [List.mem_singleton.1 he]
    exact hop

/-- An issuance right after one that returned: where the stored generation is due it returns after it has placed an order, else it
returns that generation. -/
theorem issue_standing (hstored : Stored Γ storeConfig material w) :
    Triple (recording (standing Γ storeConfig euid)) (fun v => v.1 = w ∧ Unordered v.2) (issue Γ config certificate false)
      (fun again v => (renewalDue config material w.clock = true ∧ Ordered v.2) ∨
        (renewalDue config material w.clock = false ∧ (again = material ∧ v.1 = w ∧ Unordered v.2)))
      (fun _ _ => renewalDue config material w.clock = true) fun _ => True := by
  have hload : (loadOptional certificate).Uses (Op.orders · = false) := uses_loadOptional rfl rfl
  have hreuse : (issue.reusable config false (some material)).Uses (Op.orders · = false) :=
    uses_reusable (show Op.orders .now = false from rfl) _ _
  refine Triple.bind (((loadOptional_standing hstored).recorded (unordered_frame hload)).conseq (fun _ hv => hv)
    (fun _ _ hv => hv) (fun _ _ hv => hv.1.elim) fun _ _ => trivial) fun current => ?_
  have hcurrent : ∀ v : Host × List (Event publisher Exc), (v.1 = w ∧ current = some material) ∧ Unordered v.2 →
      (v.1 = w ∧ Unordered v.2) ∧ current = some material :=
    fun v hv => ⟨⟨hv.1.1, hv.2⟩, hv.1.2⟩
  refine Triple.pre (Triple.assume ?_) hcurrent
  rintro rfl
  refine Triple.bind ((reusable_standing.recorded (unordered_frame hreuse)).conseq (fun _ hv => hv) (fun _ _ hv => hv)
    (fun _ _ hv => hv.1.elim) fun _ _ => trivial) fun reused => ?_
  have hreused : ∀ v : Host × List (Event publisher Exc),
      (v.1 = w ∧ reused = if renewalDue config material w.clock then none else some material) ∧ Unordered v.2 →
        (v.1 = w ∧ Unordered v.2) ∧ reused = if renewalDue config material w.clock then none else some material :=
    fun v hv => ⟨⟨hv.1.1, hv.2⟩, hv.1.2⟩
  refine Triple.pre (Triple.assume ?_) hreused
  rintro rfl
  cases hdue : renewalDue config material w.clock with
  | true =>
    refine ((Triple.unconstrained (P := fun _ => True) _).recorded (renewal_orders (some material))).conseq (fun _ _ => ⟨trivial, trivial⟩) ?_
      (fun _ _ _ => rfl) fun _ _ => trivial
    exact fun _ _ hv => Or.inl ⟨rfl, hv.2⟩
  | false => exact Triple.ret (fun v hv => Or.inr ⟨rfl, rfl, hv.1, hv.2⟩) fun _ _ => trivial

end BackToBackAux

open BackToBackAux

/-- After an issuance that returned, whatever failed in the store and however long it took, an issuance that is not forced, at the
instant the first one ended and with a store that works, returns the same generation, leaves the store as it is and places no order
if and only if that generation is valid for longer than the renewal window; where it is not, it returns only after it has placed
another order. -/
theorem back_to_back_iff (Γ : Ctx) (config : AppConfig) (certificate : CertificateConfig) (storeConfig : StoreConfig) (euid : Nat)
    (faults : StoreOp → Exc → Prop) (elapses : Instant → Instant → Prop) {force : Bool} {w₀ w w' : Host} {issued : LineageMaterial}
    (hfirst : Exec (hosting Γ storeConfig euid faults elapses) (issue Γ config certificate force) w₀ (.returned issued) w)
    {o : Outcome Exc LineageMaterial} {trace : List (Event publisher Exc)}
    (hsecond : Exec (recording (standing Γ storeConfig euid)) (issue Γ config certificate false) (w, []) o (w', trace))
    (hfinished : o ≠ .crashed) :
    ((o = .returned issued ∧ w'.store = w.store ∧ Unordered trace) ↔
        w.clock + days config.acme.renewBeforeDays < issued.leaf.notValidAfter) ∧
      ∀ again, o = .returned again → issued.leaf.notValidAfter ≤ w.clock + days config.acme.renewBeforeDays →
        Ordered trace := by
  have hstored : Stored Γ storeConfig issued w := issue_stores _ trivial _ _ hfirst
  have hagain := issue_standing hstored (w, []) ⟨rfl, fun _ he => by cases he⟩ _ _ hsecond
  have hdue : renewalDue config issued w.clock = false ↔ w.clock + days config.acme.renewBeforeDays < issued.leaf.notValidAfter := by
    unfold renewalDue
    rw [decide_eq_false_iff_not, Int.not_le]
  rw [← hdue]
  cases o with
  | returned again =>
    rcases hagain with ⟨hreached, placed, hmem, horders⟩ | ⟨hfresh, rfl, hstill, hnone⟩
    · refine ⟨iff_of_false ?_ (by simp [hreached]), fun _ _ _ => ⟨placed, hmem, horders⟩⟩
      rintro ⟨-, -, hnone⟩
      rw [hnone placed hmem] at horders
      cases horders
    · refine ⟨iff_of_true ⟨rfl, congrArg Host.store hstill, hnone⟩ hfresh, fun _ _ hreached => ?_⟩
      exact absurd (hdue.1 hfresh) (Int.not_lt.2 hreached)
  | raised x =>
    refine ⟨iff_of_false ?_ ?_, fun _ h => by cases h⟩
    · rintro ⟨h, -⟩
      cases h
    · have hreached : renewalDue config issued w.clock = true := hagain
      simp [hreached]
  | crashed => exact absurd rfl hfinished

namespace BackToBackSample

open StoreAux IssuedMaterialSample

/-- What the CA and the files answer; the chain that is served is the one of the leaf `A`, valid for ninety days. -/
def served (token : String) (clock : Instant) : (op : Op) → Except Exc op.Reply
  | .now => .ok clock
  | .acmeClient | .writeChallenge .. | .answerChallenge .. | .removeChallenge _ | .pollAuthorizations .. => .ok ()
  | .newOrder .. => .ok ⟨"order", [⟨"a.example", [.http01 "token" "validation"]⟩]⟩
  | .finalizeOrder .. => .ok ⟨"AI", []⟩
  | .generateKey _ => .ok Sample.privateKey
  | .readFile _ => .ok [82]
  | .tokenHex _ => .ok token
  | _ => .error (.of .osError "unreachable")

/-- A host on which no time passes. -/
def host (token : String) : Handler publisher Exc Host := fun w op =>
  match storeProgram Sample.ctx publisherUser op with
  | some p =>
    match p.runFor answerReads 200 w.store with
    | (.returned a, t) => some (.ok a, { w with store := t })
    | (.raised x, t) => some (.error x, { w with store := t })
    | (.crashed, _) => none
  | none => some (served token w.clock op, w)

theorem host_allowed (token : String) : (host token).Allowed (standing Sample.ctx publisherUser 0) := by
  intro w op answer w' h
  have hallowed : answerReads.Allowed (disk 0 fun _ _ => False) :=
    fun t op r t' h => stepping_of_succeeding (answerReads_allowed t op r t' h)
  have hstore : ∀ op answer, storeProgram Sample.ctx publisherUser op ≠ none → w.Shows op answer := by
    intro op answer hop
    cases op with
    | now => exact absurd rfl hop
    | _ => trivial
  have hserved : ∀ op, w.Shows op (served token w.clock op) := by
    intro op
    cases op with
    | now => rfl
    | _ => trivial
  unfold host at h
  unfold standing hosting
  split at h
  · rename_i p hp
    have hshows := fun answer => hstore op answer (by rw [hp]; nofun)
    have hrun := exec_runFor hallowed 200 p w.store
    split at h
    · rename_i a t hends
      cases h
      rw [hends] at hrun
      exact ⟨rfl, hshows _, hrun⟩
    · rename_i x t hends
      cases h
      rw [hends] at hrun
      exact ⟨rfl, hshows _, hrun⟩
    · cases h
  · cases h
    exact ⟨rfl, hserved op, rfl⟩

/-- A document with the sample certificate and this renewal window. -/
def document (renewBeforeDays : Int) : Yaml :=
  .map [("schema_version", .int 4), ("global", .map [("environment", .str "production"), ("state_dir", .str "/var/lib/state")]),
    ("compatibility", .map [("enforce_documented_subject_country", .bool false)]),
    ("acme", .map [("email", .str "a@example"), ("agree_to_terms", .bool true), ("directory_url", .str "https://acme.example"),
      ("account_key_path", .str "/var/lib/account.pem"), ("certificates_dir", .str "/var/lib/certificates"),
      ("renew_before_days", .int renewBeforeDays)]),
    ("http01", .map [("webroot_base", .str "/var/lib/webroot"),
      ("responder", .map [("bind_address", .str "127.0.0.1"), ("bind_port", .int 8080)]), ("self_check", .map [])]),
    ("oci", .map [("authentication", .str "instance_principal")]),
    ("certificates", .seq [.map [("id", .str "web"), ("webroot_id", .str "web"), ("common_name", .str "a.example"),
      ("domains", .seq [.str "a.example"]), ("key", .map [("type", .str "rsa"), ("rsa_size", .int 2048)]),
      ("chain", .map [("root_pem_path", .str "/root.pem"), ("allowed_root_sha256", .seq [.str (certificateSha256 Sample.root)]),
        ("allowed_issuer_common_names", .seq [.str "R3"])]),
      ("oci", .map [("region", .str "eu-frankfurt-1"), ("compartment_ocid", .str "ocid1.compartment.oc1..example"),
        ("certificate_ocid", .null), ("certificate_name", .str "web")]), ("audit", .map [("mode", .str "disabled")])]])]

/-- A forced issuance and then one that is not, by root, in the first second of the leaf `A`. -/
def first (config : AppConfig) (certificate : CertificateConfig) : Outcome Exc LineageMaterial × Host :=
  (issue Sample.ctx config certificate true).runFor (host "first") 100 ⟨oldTree, 0⟩

def second (config : AppConfig) (certificate : CertificateConfig) :
    Outcome Exc LineageMaterial × Host × List (Event publisher Exc) :=
  (issue Sample.ctx config certificate false).runFor (host "second").record 100 ((first config certificate).2, [])

def issued : LineageMaterial := { Sample.material with leaf := Sample.leaf 1, leafPem := [65] }

/-- The document is accepted, both issuances return the leaf `A`, and whether it is due decides whether the second one orders. -/
def runs (renewBeforeDays : Int) (due : Bool) : Bool :=
  ((document renewBeforeDays).appConfig Sample.ctx).any fun config =>
    config.certificates.any fun certificate =>
      (first config certificate).1 = .returned issued ∧ (second config certificate).1 = .returned issued ∧
        (second config certificate).2.2.any (·.op.orders) = due ∧
          renewalDue config issued (first config certificate).2.clock = due

theorem of_runs {renewBeforeDays : Int} {due : Bool} (h : runs renewBeforeDays due = true) :
    ∃ config certificate, (document renewBeforeDays).appConfig Sample.ctx = some config ∧ certificate ∈ config.certificates ∧
      Exec (standing Sample.ctx publisherUser 0) (issue Sample.ctx config certificate true) ⟨oldTree, 0⟩ (.returned issued)
        (first config certificate).2 ∧
      Exec (recording (standing Sample.ctx publisherUser 0)) (issue Sample.ctx config certificate false)
        ((first config certificate).2, []) (.returned issued) (second config certificate).2 ∧
      (second config certificate).2.2.any (·.op.orders) = due ∧
      renewalDue config issued (first config certificate).2.clock = due := by
  unfold runs at h
  cases hdocument : (document renewBeforeDays).appConfig Sample.ctx with
  | none =>
    rw [hdocument] at h
    cases h
  | some config =>
    rw [hdocument] at h
    obtain ⟨certificate, hmem, hruns⟩ := List.any_eq_true.1 h
    obtain ⟨hfirst, hsecond, hordered⟩ := of_decide_eq_true hruns
    exact ⟨config, certificate, rfl, hmem, exec_of_runFor (host_allowed "first") hfirst,
      exec_of_runFor (host_allowed "second").record hsecond, hordered⟩

end BackToBackSample

open BackToBackSample StoreAux

/-- With the longest window the configuration admits, a certificate of ninety days is due as soon as it is issued: the second
issuance orders it again. -/
theorem back_to_back_false :
    ∃ config certificate w w' trace, (document 90).appConfig Sample.ctx = some config ∧ certificate ∈ config.certificates ∧
      Exec (standing Sample.ctx publisherUser 0) (issue Sample.ctx config certificate true) ⟨oldTree, 0⟩ (.returned issued) w ∧
      Exec (recording (standing Sample.ctx publisherUser 0)) (issue Sample.ctx config certificate false) (w, [])
        (.returned issued) (w', trace) ∧
      ∃ e ∈ trace, e.op.orders = true := by
  have hruns : runs 90 true = true := by decide +kernel
  obtain ⟨config, certificate, hdocument, hmem, hfirst, hsecond, hordered, -⟩ := of_runs hruns
  exact ⟨config, certificate, _, _, _, hdocument, hmem, hfirst, hsecond, List.any_eq_true.1 hordered⟩

/-- With the default window the second issuance reuses it. -/
theorem back_to_back_iff_sample :
    ∃ config certificate, (document 30).appConfig Sample.ctx = some config ∧ certificate ∈ config.certificates ∧
      (second config certificate).2.1.store = (first config certificate).2.store ∧ Unordered (second config certificate).2.2 := by
  have hruns : runs 30 false = true := by decide +kernel
  obtain ⟨config, certificate, hdocument, hmem, hfirst, hsecond, -, hdue⟩ := of_runs hruns
  unfold renewalDue at hdue
  rw [decide_eq_false_iff_not, Int.not_le] at hdue
  have hagain := (back_to_back_iff Sample.ctx config certificate publisherUser 0 (fun _ _ => False)
    (fun before after => after = before) hfirst hsecond nofun).1.2 hdue
  exact ⟨config, certificate, hdocument, hmem, hagain.2.1, hagain.2.2⟩

end OciAcmePublisher
