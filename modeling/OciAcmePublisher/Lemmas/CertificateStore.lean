import OciAcmePublisher.CertificateStore
import OciAcmePublisher.Effects.Monitor

/-!
# What the certificate store loads

A load that nothing disturbs is determined by the tree: by the pointer, and by the three files of the generation it names.
-/

namespace OciAcmePublisher

open Effects NativeCertificateStore

variable {Γ : Ctx} {config : StoreConfig} {euid : Nat} {faults : StoreOp → Exc → Prop} {t : LineageTree}

namespace LineageTree

/-- The content of the file, where `_read` accepts it. -/
def readable (config : StoreConfig) (t : LineageTree) (path : List String) (maximumBytes : Nat) (isPrivate : Bool) :
    Option Bytes :=
  match t.archive path with
  | some (.file f) =>
    if f.owner = config.expectedOwnerUid ∧ f.mode &&& groupOtherWrite = 0 ∧
        (isPrivate = true → f.mode &&& groupOtherRead = 0) ∧ f.content.length ≤ maximumBytes then some f.content
    else none
  | _ => none

/-- The material of the generation at the path. -/
def generation (Γ : Ctx) (config : StoreConfig) (t : LineageTree) (path : List String) : Option LineageMaterial :=
  match t.readable config (path ++ ["cert.pem"]) maxCertificatePemBytes false,
    t.readable config (path ++ ["chain.pem"]) maxChainPemBytes false,
    t.readable config (path ++ ["privkey.pem"]) maxPrivateKeyPemBytes true with
  | some leafPem, some chainPem, some privateKeyPem => parseMaterial Γ leafPem chainPem privateKeyPem
  | _, _, _ => none

/-- What a load returns, none where it raises `CertificateStoreError`. -/
def loaded (Γ : Ctx) (config : StoreConfig) (t : LineageTree) : Option LineageMaterial :=
  match t.entries "current" with
  | some (.link (.inside path)) => if t.isDirectory path = true then t.generation Γ config path else none
  | _ => none

end LineageTree

/-- Nothing disturbs the load: it returns the material that is found, or raises `CertificateStoreError` where there is none. -/
def LoadReturns (Γ : Ctx) (config : StoreConfig) (euid : Nat) (t : LineageTree) (found : Option LineageMaterial) : Prop :=
  ∀ o t', Exec (disk euid fun _ _ => False) (load Γ config) t o t' → o ≠ .crashed → t' = t ∧
    match found with
    | some material => o = .returned material
    | none => ∃ x, o = .raised x ∧ x.isInstance .certificateStoreError = true

namespace StoreAux

/-- Something is at fault. -/
def Fault (faults : StoreOp → Exc → Prop) : Prop := ∃ op x, faults op x

/-- The operations of a load. -/
def StoreOp.reads : StoreOp → Bool
  | .isSymlink _ | .realpath _ | .isDirectory _ | .openRead _ | .fstat _ | .read .. | .close => true
  | _ => false

theorem read_uses (path : List String) (maximumBytes : Nat) (isPrivate : Bool) :
    (NativeCertificateStore.read config path maximumBytes isPrivate).Uses (StoreOp.reads · = true) := by
  refine Program.uses_bind (Program.uses_attempt (Program.uses_perform.2 rfl)) fun opened => ?_
  cases opened with
  | error error =>
    simp only
    split <;> trivial
  | ok _ =>
    refine Program.uses_ensure (Program.uses_bind (Program.uses_perform.2 rfl) fun metadata => ?_)
      (Program.uses_perform.2 rfl)
    split
    · trivial
    · split
      · trivial
      · split
        · trivial
        · refine Program.uses_bind (Program.uses_perform.2 rfl) fun content => ?_
          split <;> trivial

theorem load_uses : (load Γ config).Uses (StoreOp.reads · = true) := by
  refine Program.uses_bind (Program.uses_perform.2 rfl) fun isLink => ?_
  split
  · trivial
  · refine Program.uses_bind (Program.uses_perform.2 rfl) fun target => ?_
    cases target with
    | outside => trivial
    | inside path =>
      refine Program.uses_bind (Program.uses_perform.2 rfl) fun isDir => ?_
      split
      · trivial
      · refine Program.uses_bind (read_uses _ _ _) fun leafPem => Program.uses_bind (read_uses _ _ _) fun chainPem => ?_
        refine Program.uses_bind (read_uses _ _ _) fun privateKeyPem => ?_
        split <;> trivial

theorem step_reads {op : StoreOp} (hop : StoreOp.reads op = true) {reply : storage.Reply op} {t' : LineageTree}
    (h : t.Step euid op reply t') : t' = t := by
  cases op <;> first | exact h.1 | exact h | cases hop

/-- An operation that changes nothing: it answers what holds, or raises, by a fault or because it cannot answer. -/
theorem store_reads {op : StoreOp} (hop : StoreOp.reads op = true) :
    Triple (disk euid faults) (· = t) (store op) (fun reply t' => t' = t ∧ t.Step euid op reply t)
      (fun x t' => t' = t ∧ (Fault faults ∨ (x.isInstance .osError = true ∧ ∀ reply, ¬t.Step euid op reply t)))
      (· = t) := by
  refine Triple.perform (fun _ hw => hw) ?_ ?_
  · intro t₁ reply t' ht hs
    subst ht
    have heq := step_reads hop hs
    subst heq
    exact ⟨⟨rfl, hs⟩, rfl⟩
  · rintro t₁ x t' ht ⟨hkeep, hx⟩
    subst ht hkeep
    refine ⟨⟨rfl, ?_⟩, rfl⟩
    rcases hx with hx | ⟨hx, hnone⟩
    · exact Or.inl ⟨op, x, hx⟩
    · exact Or.inr ⟨hx, fun reply => hnone reply t'⟩

/-- An operation that changes nothing and can answer, and what comes after it. -/
theorem bind_reads {op : StoreOp} {α : Type} {f : storage.Reply op → StoreAction α} {Q : α → LineageTree → Prop}
    {E : Exc → LineageTree → Prop} (hop : StoreOp.reads op = true) (hable : ∃ reply, t.Step euid op reply t)
    (hfault : ∀ x, Fault faults → E x t)
    (hf : ∀ reply, t.Step euid op reply t → Triple (disk euid faults) (· = t) (f reply) Q E (· = t)) :
    Triple (disk euid faults) (· = t) ((store op).bind f) Q E (· = t) := by
  refine Triple.bind ((store_reads hop).conseq (fun _ hw => hw) (fun _ _ hw => hw) ?_ fun _ hw => hw)
    fun reply => Triple.assume (hf reply)
  rintro x t' ⟨rfl, hx⟩
  obtain ⟨reply, hs⟩ := hable
  exact hfault x (hx.resolve_right fun h => h.2 reply hs)

/-- What a step of the load raises: a fault, or a `CertificateStoreError` where there is nothing to load. -/
def Refuses (faults : StoreOp → Exc → Prop) (t : LineageTree) {α : Type} (found : Option α) (x : Exc)
    (t' : LineageTree) : Prop :=
  t' = t ∧ (Fault faults ∨ (found = none ∧ x.isInstance .certificateStoreError = true))

theorem readOpened_spec (path : List String) (maximumBytes : Nat) (isPrivate : Bool)
    (hnode : ∃ node, t.archive path = some node ∧ node ≠ .link) :
    Triple (disk euid faults) (· = t) (readOpened config path maximumBytes isPrivate)
      (fun content t' => t' = t ∧ t.readable config path maximumBytes isPrivate = some content)
      (Refuses faults t (t.readable config path maximumBytes isPrivate)) (· = t) := by
  obtain ⟨node, hnode, hlink⟩ := hnode
  have hraise : ∀ message, t.readable config path maximumBytes isPrivate = none →
      Triple (disk euid faults) (· = t) (.raise (storeError message) : StoreAction Bytes)
        (fun content t' => t' = t ∧ t.readable config path maximumBytes isPrivate = some content)
        (Refuses faults t (t.readable config path maximumBytes isPrivate)) (· = t) := fun message hnone =>
    Triple.raise (fun t' ht => ⟨ht, Or.inr ⟨hnone, rfl⟩⟩) fun _ ht => ht
  have hfault : ∀ x, Fault faults → Refuses faults t (t.readable config path maximumBytes isPrivate) x t :=
    fun _ h => ⟨rfl, Or.inl h⟩
  cases node with
  | link => exact absurd rfl hlink
  | directory =>
    have hnone : t.readable config path maximumBytes isPrivate = none := by
      unfold LineageTree.readable
      rw [hnode]
    refine bind_reads rfl ⟨⟨false, 0, 0⟩, rfl, Or.inl ⟨rfl, hnode⟩⟩ hfault fun metadata => ?_
    rintro ⟨-, ⟨hreg, -⟩ | ⟨f, hf, -⟩⟩
    · rw [if_pos (Or.inl hreg)]
      exact hraise _ hnone
    · rw [hnode] at hf
      cases hf
  | file f =>
    refine bind_reads rfl ⟨⟨true, f.owner, f.mode⟩, rfl, Or.inr ⟨f, hnode, rfl⟩⟩ hfault fun metadata => ?_
    rintro ⟨-, ⟨-, hdir⟩ | ⟨f', hf', rfl⟩⟩
    · rw [hnode] at hdir
      cases hdir
    · rw [hnode] at hf'
      cases hf'
      split
      · rename_i hbad
        refine hraise _ ?_
        unfold LineageTree.readable
        rw [hnode]
        simp only
        rw [if_neg]
        rintro ⟨howner, -⟩
        rcases hbad with hbad | hbad
        · cases hbad
        · exact hbad howner
      · rename_i howner
        split
        · rename_i hbad
          refine hraise _ ?_
          unfold LineageTree.readable
          rw [hnode]
          simp only
          rw [if_neg]
          rintro ⟨-, hmode, -⟩
          exact hbad hmode
        · rename_i hmode
          split
          · rename_i hbad
            refine hraise _ ?_
            unfold LineageTree.readable
            rw [hnode]
            simp only
            rw [if_neg]
            rintro ⟨-, -, hpriv, -⟩
            exact hbad.2 (hpriv hbad.1)
          · rename_i hpriv
            refine bind_reads rfl ⟨f.content.take (maximumBytes + 1), rfl, f, hnode, rfl⟩ hfault fun content => ?_
            rintro ⟨-, f', hf', rfl⟩
            rw [hnode] at hf'
            cases hf'
            have hlength : (f.content.take (maximumBytes + 1)).length = min (maximumBytes + 1) f.content.length :=
              List.length_take
            simp only [not_or, not_not, not_and] at howner hmode hpriv
            split
            · rename_i hlong
              refine hraise _ ?_
              unfold LineageTree.readable
              rw [hnode]
              simp only
              rw [if_neg]
              rintro ⟨-, -, -, hmax⟩
              omega
            · rename_i hshort
              have hmax : f.content.length ≤ maximumBytes := by omega
              have htake : f.content.take (maximumBytes + 1) = f.content := List.take_of_length_le (by omega)
              refine Triple.ret (fun t' ht => ⟨ht, ?_⟩) fun _ ht => ht
              unfold LineageTree.readable
              rw [hnode]
              simp only
              rw [if_pos ⟨howner.2, hmode, hpriv, hmax⟩, htake]

theorem read_spec (path : List String) (maximumBytes : Nat) (isPrivate : Bool) :
    Triple (disk euid faults) (· = t) (NativeCertificateStore.read config path maximumBytes isPrivate)
      (fun content t' => t' = t ∧ t.readable config path maximumBytes isPrivate = some content)
      (Refuses faults t (t.readable config path maximumBytes isPrivate)) (· = t) := by
  refine Triple.bind (Triple.attempt (store_reads (by rfl)) (fun _ _ hw => hw.1) fun _ _ hw => hw.1) ?_
  rintro (error | _)
  · simp only
    refine Triple.pre (P := fun t' => t' = t ∧ (Fault faults ∨ (error.isInstance .osError = true ∧
      ∀ reply, ¬t.Step euid (.openRead path) reply t))) ?_ fun _ hw => hw
    refine Triple.assume fun hx => ?_
    split
    · refine Triple.raise (fun t' ht => ⟨ht, ?_⟩) fun _ ht => ht
      rcases hx with hx | ⟨-, hnone⟩
      · exact Or.inl hx
      · refine Or.inr ⟨?_, rfl⟩
        unfold LineageTree.readable
        split
        · rename_i f hf
          exact absurd ⟨rfl, .file f, hf, nofun⟩ (hnone ())
        · rfl
    · rename_i hos
      refine Triple.raise (fun t' ht => ⟨ht, Or.inl ?_⟩) fun _ ht => ht
      exact hx.resolve_right fun h => hos h.1
  · simp only
    refine Triple.pre (P := fun t' => t' = t ∧ t.Step euid (.openRead path) () t) ?_ fun _ hw => hw
    refine Triple.assume ?_
    rintro ⟨-, hnode⟩
    have hclose : ∀ {P : LineageTree → Prop}, (∀ t', P t' → t' = t) →
        Triple (disk euid faults) P (store .close) (fun _ => P)
          (Refuses faults t (t.readable config path maximumBytes isPrivate)) (· = t) := by
      intro P hP
      refine Triple.perform hP ?_ ?_
      · intro t₁ reply t' ht hs
        have heq : t' = t₁ := hs
        subst heq
        exact ⟨ht, hP _ ht⟩
      · rintro t₁ x t' ht ⟨hkeep, hx⟩
        subst hkeep
        refine ⟨⟨hP _ ht, Or.inl ?_⟩, hP _ ht⟩
        rcases hx with hx | ⟨-, hnone⟩
        · exact ⟨_, x, hx⟩
        · exact absurd rfl (hnone () t')
    exact Triple.ensure (readOpened_spec path maximumBytes isPrivate hnode) (fun _ => hclose fun _ h => h.1)
      (fun _ => hclose fun _ h => h.1) (fun _ _ h => h.1) fun _ _ h => h.1

theorem loadGeneration_spec (path : List String) :
    Triple (disk euid faults) (· = t) (loadGeneration Γ config path)
      (fun material t' => t' = t ∧ t.generation Γ config path = some material)
      (Refuses faults t (t.generation Γ config path)) (· = t) := by
  have hnone : ∀ {α : Type} {found : Option α}, (found = none → t.generation Γ config path = none) → ∀ x t',
      Refuses faults t found x t' → Refuses faults t (t.generation Γ config path) x t' := by
    rintro α found h x t' ⟨ht, hx⟩
    exact ⟨ht, hx.imp_right fun hx => ⟨h hx.1, hx.2⟩⟩
  refine Triple.bind ((read_spec _ _ _).conseq (fun _ hw => hw) (fun _ _ hw => hw) (hnone ?_) fun _ hw => hw)
    fun leafPem => Triple.assume fun hleaf => ?_
  · intro h
    unfold LineageTree.generation
    rw [h]
  refine Triple.bind ((read_spec _ _ _).conseq (fun _ hw => hw) (fun _ _ hw => hw) (hnone ?_) fun _ hw => hw)
    fun chainPem => Triple.assume fun hchain => ?_
  · intro h
    unfold LineageTree.generation
    rw [hleaf, h]
  refine Triple.bind ((read_spec _ _ _).conseq (fun _ hw => hw) (fun _ _ hw => hw) (hnone ?_) fun _ hw => hw)
    fun privateKeyPem => Triple.assume fun hkey => ?_
  · intro h
    unfold LineageTree.generation
    rw [hleaf, hchain, h]
  have hgeneration : t.generation Γ config path = parseMaterial Γ leafPem chainPem privateKeyPem := by
    unfold LineageTree.generation
    rw [hleaf, hchain, hkey]
  rw [hgeneration]
  cases hparse : parseMaterial Γ leafPem chainPem privateKeyPem with
  | some material => exact Triple.ret (fun _ ht => ⟨ht, rfl⟩) fun _ ht => ht
  | none => exact Triple.raise (fun _ ht => ⟨ht, Or.inr ⟨rfl, rfl⟩⟩) fun _ ht => ht

/-- A load answers what is there, and raises where nothing is, or by a fault. -/
theorem load_spec :
    Triple (disk euid faults) (· = t) (load Γ config) (fun material t' => t' = t ∧ t.loaded Γ config = some material)
      (Refuses faults t (t.loaded Γ config)) (· = t) := by
  have hraise : ∀ message, t.loaded Γ config = none →
      Triple (disk euid faults) (· = t) (.raise (storeError message) : StoreAction LineageMaterial)
        (fun material t' => t' = t ∧ t.loaded Γ config = some material) (Refuses faults t (t.loaded Γ config)) (· = t) :=
    fun message hnone => Triple.raise (fun t' ht => ⟨ht, Or.inr ⟨hnone, rfl⟩⟩) fun _ ht => ht
  have hfault : ∀ x, Fault faults → Refuses faults t (t.loaded Γ config) x t := fun _ h => ⟨rfl, Or.inl h⟩
  by_cases hlink : ∃ target, t.entries "current" = some (.link target)
  · obtain ⟨target, htarget⟩ := hlink
    refine bind_reads rfl ⟨true, rfl, ⟨fun _ => ⟨target, htarget⟩, fun _ => rfl⟩⟩ hfault fun isLink => ?_
    rintro ⟨-, hisLink⟩
    rw [if_neg (by rw [hisLink.2 ⟨target, htarget⟩]; simp)]
    refine bind_reads rfl ⟨target, rfl, htarget⟩ hfault fun found => ?_
    rintro ⟨-, hfound⟩
    obtain rfl : found = target := by
      rw [htarget] at hfound
      cases hfound
      rfl
    cases found with
    | outside =>
      refine hraise _ ?_
      unfold LineageTree.loaded
      rw [hfound]
    | inside path =>
      refine bind_reads rfl ⟨t.isDirectory path, rfl, rfl⟩ hfault fun isDir => ?_
      rintro ⟨-, rfl⟩
      have hloaded : t.loaded Γ config = if t.isDirectory path = true then t.generation Γ config path else none := by
        unfold LineageTree.loaded
        rw [hfound]
      split
      · rename_i hdir
        refine hraise _ ?_
        rw [hloaded, hdir]
        rfl
      · rename_i hdir
        rw [Bool.not_eq_false] at hdir
        rw [hloaded, if_pos hdir]
        exact loadGeneration_spec path
  · have hnone : t.loaded Γ config = none := by
      unfold LineageTree.loaded
      split
      · rename_i path h
        exact absurd ⟨_, h⟩ hlink
      · rfl
    refine bind_reads rfl ⟨false, rfl, by simpa using hlink⟩ hfault fun isLink => ?_
    rintro ⟨-, hisLink⟩
    have hfalse : isLink = false := by
      by_contra h
      rw [Bool.not_eq_false] at h
      exact hlink (hisLink.1 h)
    rw [if_pos hfalse]
    exact hraise _ hnone

theorem halts_read (path : List String) (maximumBytes : Nat) (isPrivate : Bool) :
    (NativeCertificateStore.read config path maximumBytes isPrivate).Halts := by
  refine Program.halts_bind (Program.halts_attempt Program.halts_perform) fun opened => ?_
  cases opened with
  | error error =>
    simp only
    split <;> trivial
  | ok _ =>
    refine Program.halts_ensure (Program.halts_bind Program.halts_perform fun metadata => ?_) Program.halts_perform
    split
    · trivial
    · split
      · trivial
      · split
        · trivial
        · refine Program.halts_bind Program.halts_perform fun content => ?_
          split <;> trivial

theorem halts_load : (load Γ config).Halts := by
  refine Program.halts_bind Program.halts_perform fun isLink => ?_
  split
  · trivial
  · refine Program.halts_bind Program.halts_perform fun target => ?_
    cases target with
    | outside => trivial
    | inside path =>
      refine Program.halts_bind Program.halts_perform fun isDir => ?_
      split
      · trivial
      · refine Program.halts_bind (halts_read _ _ _) fun leafPem => Program.halts_bind (halts_read _ _ _) fun chainPem => ?_
        refine Program.halts_bind (halts_read _ _ _) fun privateKeyPem => ?_
        split <;> trivial

/-- The load that nothing disturbs is the one of the tree. -/
theorem loadReturns_iff {found : Option LineageMaterial} :
    LoadReturns Γ config euid t found ↔ found = t.loaded Γ config := by
  have hruns : ∀ o t', Exec (disk euid fun _ _ => False) (load Γ config) t o t' → o ≠ .crashed → t' = t ∧
      ((∃ material, o = .returned material ∧ t.loaded Γ config = some material) ∨
        ∃ x, o = .raised x ∧ t.loaded Γ config = none ∧ x.isInstance .certificateStoreError = true) := by
    intro o t' hx ho
    have hpost := load_spec t rfl o t' hx
    cases o with
    | returned material => exact ⟨hpost.1, Or.inl ⟨material, rfl, hpost.2⟩⟩
    | raised x =>
      obtain ⟨ht, ⟨op, y, hfault⟩ | hx⟩ := hpost
      · exact hfault.elim
      · exact ⟨ht, Or.inr ⟨x, rfl, hx⟩⟩
    | crashed => exact absurd rfl ho
  constructor
  · intro h
    have hanswers : ∀ (t : LineageTree) op, ∃ r t', disk euid (fun _ _ => False) t op r t' :=
      stepping_answers (x := Exc.of .osError "no such file or directory") rfl
    have hhalts : (load Γ config).Halts := halts_load
    obtain ⟨o, t', hx, ho⟩ := exists_finished hanswers hhalts t
    have hfound := (h o t' hx ho).2
    rcases (hruns o t' hx ho).2 with ⟨material, rfl, hm⟩ | ⟨x, rfl, hnone, -⟩
    · rw [hm]
      cases found with
      | some material' =>
        cases hfound
        rfl
      | none =>
        obtain ⟨x, hx, -⟩ := hfound
        cases hx
    · rw [hnone]
      cases found with
      | some material' => cases hfound
      | none => rfl
  · rintro rfl o t' hx ho
    obtain ⟨ht, hcases⟩ := hruns o t' hx ho
    refine ⟨ht, ?_⟩
    rcases hcases with ⟨material, rfl, hm⟩ | ⟨x, rfl, hnone, hstore⟩
    · rw [hm]
    · rw [hnone]
      exact ⟨x, rfl, hstore⟩

end StoreAux

end OciAcmePublisher
