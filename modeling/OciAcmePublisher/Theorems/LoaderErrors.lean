import OciAcmePublisher.Simulation
import OciAcmePublisher.YamlConstructor

/-!
# Errors of the loader

A key that is a list or a dictionary cannot be looked up, a text or a sequence is no mapping for `_construct_mapping` to unpack, and the
constructor of a scalar may raise what is no `YAMLError`: these errors pass the loader's handler. Which error stops a construction depends
on the order in which its nodes are visited: the first.
-/

namespace OciAcmePublisher

variable {κ : Type} {parser : YamlParser κ}

/-- What a step of the construction meets. -/
abbrev Meeting := Option LoadFault

/-- The lookup of a key after the keys before it. -/
def testKey (parser : YamlParser κ) (seen : List κ) : Option κ → Meeting
  | some k => if seen.any (parser.equal · k) then some .yaml else none
  | none => some .unhashable

/-- What the construction of a leaf meets. -/
def YamlNode.testLeaf (parser : YamlParser κ) (node : YamlNode) : Meeting :=
  match node.constructLeaf parser with
  | .ok _ => none
  | .error fault => some fault

/-- The generators that a leaf leaves. -/
def YamlNode.leafGenerators (parser : YamlParser κ) (node : YamlNode) : List Generator :=
  match node.constructLeaf parser with
  | .ok object => object.2
  | .error _ => []

mutual

/-- What is met in a node that is constructed at once, in the order of its construction, and the generators in it. -/
def YamlNode.visit (parser : YamlParser κ) : YamlNode → List Meeting × List Generator
  | .map .map entries => visitEntries parser [] entries
  | node => ([node.testLeaf parser], node.leafGenerators parser)

def visitEntries (parser : YamlParser κ) (seen : List κ) : List (YamlNode × YamlNode) → List Meeting × List Generator
  | [] => ([], [])
  | (key, value) :: rest =>
    ((key.visit parser).1 ++ testKey parser seen (key.scalarValue parser) ::
        ((value.visit parser).1 ++ (visitEntries parser ((key.scalarValue parser).toList ++ seen) rest).1),
      (key.visit parser).2 ++ (value.visit parser).2 ++ (visitEntries parser ((key.scalarValue parser).toList ++ seen) rest).2)

end

namespace LoaderErrorsAux

theorem leafGenerators_pending (parser : YamlParser κ) (node : YamlNode) : ((node.leafGenerators parser).map sizeOf).sum ≤ sizeOf node := by
  unfold YamlNode.leafGenerators
  cases hleaf : node.constructLeaf parser with
  | ok object => exact YamlNode.constructLeaf_pending hleaf
  | error fault => exact Nat.zero_le _

mutual

theorem visit_pending : ∀ node : YamlNode, ((node.visit parser).2.map sizeOf).sum ≤ sizeOf node
  | .map .map entries => by
    have hentries := visitEntries_pending [] entries
    simp only [YamlNode.map.sizeOf_spec, YamlNode.visit]
    omega
  | .scalar _ _ | .seq _ _ => leafGenerators_pending parser _
  | .map .seq entries => leafGenerators_pending parser (.map .seq entries)
  | .map (.collection name) entries => leafGenerators_pending parser (.map (.collection name) entries)
  | .map (.scalar name) entries => leafGenerators_pending parser (.map (.scalar name) entries)
  | .map (.undefined name) entries => leafGenerators_pending parser (.map (.undefined name) entries)

theorem visitEntries_pending : ∀ (seen : List κ) (entries : List (YamlNode × YamlNode)),
    ((visitEntries parser seen entries).2.map sizeOf).sum ≤ sizeOf entries
  | _, [] => Nat.zero_le _
  | seen, (key, value) :: rest => by
    have hsize := pending_append (pending_append (visit_pending key) (visit_pending value))
      (visitEntries_pending ((key.scalarValue parser).toList ++ seen) rest)
    simp only [List.cons.sizeOf_spec, Prod.mk.sizeOf_spec, visitEntries]
    omega

end

end LoaderErrorsAux

/-- A node of the tree. -/
inductive YamlNode.Has : YamlNode → YamlNode → Prop where
  | self (node : YamlNode) : Has node node
  | item {tag : YamlTag} {items : List YamlNode} {item node : YamlNode} : item ∈ items → Has item node → Has (.seq tag items) node
  | key {tag : YamlTag} {entries : List (YamlNode × YamlNode)} {key value node : YamlNode} :
      (key, value) ∈ entries → Has key node → Has (.map tag entries) node
  | value {tag : YamlTag} {entries : List (YamlNode × YamlNode)} {key value node : YamlNode} :
      (key, value) ∈ entries → Has value node → Has (.map tag entries) node

/-- A set, an ordered map, pairs, or a mapping with a key `=` under a scalar's tag. -/
inductive YamlNode.Special : YamlNode → Prop where
  | seq (name : String) (items : List YamlNode) : Special (.seq (.collection name) items)
  | map (name : String) (entries : List (YamlNode × YamlNode)) : Special (.map (.collection name) entries)
  | scalar (name : String) {entries : List (YamlNode × YamlNode)} : hasValueKey entries = true → Special (.map (.scalar name) entries)

/-- No node of the tree is special. -/
def YamlNode.Plain (node : YamlNode) : Prop := ∀ inner, node.Has inner → ¬inner.Special

/-- The documents are plain. -/
def YamlParser.Plain (parser : YamlParser κ) : Prop := ∀ raw node, parser.parse raw = some node → node.Plain

/-- The keys of a mapping are scalars, no two of them equal. -/
def WellKeyed (parser : YamlParser κ) (entries : List (YamlNode × YamlNode)) : Prop :=
  ∃ keys : List κ, (entries.map fun entry => entry.1.scalarValue parser) = keys.map some ∧
    keys.Pairwise fun a b => parser.equal a b = false

namespace LoaderErrorsAux

/-! ## The first fault -/

/-- What the meetings come to: the first fault, or the result where there is none. -/
def stopped {α : Type} (met : List Meeting) (a : α) : Except LoadFault α :=
  match met.findSome? id with
  | some fault => .error fault
  | none => .ok a

theorem stopped_bind {α β : Type} (before after : List Meeting) (a : α) {f : α → Except LoadFault β} {b : β}
    (hf : f a = stopped after b) : (stopped before a >>= f) = stopped (before ++ after) b := by
  unfold stopped at hf ⊢
  rw [List.findSome?_append]
  cases before.findSome? id with
  | some fault => rfl
  | none => exact hf

theorem stopped_bind_return {α β : Type} (met : List Meeting) (a : α) (g : α → β) :
    (stopped met a >>= fun a => pure (g a)) = stopped met (g a) := by
  have h := stopped_bind met [] a (f := fun a => pure (g a)) (b := g a) rfl
  rwa [List.append_nil] at h

theorem eq_of_stopped {α : Type} {met : List Meeting} {a b : α} (h : stopped met a = .ok b) : a = b := by
  unfold stopped at h
  split at h
  · cases h
  · exact Except.ok.inj h

/-- A lookup, and what follows it where it finds nothing. -/
theorem checkKey_bind {β : Type} {seen : List κ} {key : Option κ} {f : κ → Except LoadFault β} {after : List Meeting} {b : β}
    (hf : ∀ k, key = some k → f k = stopped after b) :
    (checkKey parser seen key >>= f) = stopped (testKey parser seen key :: after) b := by
  cases key with
  | none => rfl
  | some k =>
    simp only [checkKey, testKey]
    split_ifs
    · rfl
    · exact hf k rfl

theorem constructLeaf_eq (node : YamlNode) :
    node.constructLeaf parser = stopped [node.testLeaf parser] (node.scalarValue parser, node.leafGenerators parser) := by
  unfold YamlNode.testLeaf YamlNode.scalarValue YamlNode.leafGenerators
  cases node.constructLeaf parser with
  | ok object => rfl
  | error fault => rfl

mutual

/-- A node is constructed up to its first fault. -/
theorem construct_eq : ∀ node : YamlNode,
    node.construct parser = stopped (node.visit parser).1 (node.scalarValue parser, (node.visit parser).2)
  | .map .map entries => by
    rw [YamlNode.construct, constructEntries_eq [] entries]
    exact stopped_bind_return _ _ _
  | .scalar _ _ | .seq _ _ => constructLeaf_eq _
  | .map .seq entries => constructLeaf_eq (.map .seq entries)
  | .map (.collection name) entries => constructLeaf_eq (.map (.collection name) entries)
  | .map (.scalar name) entries => constructLeaf_eq (.map (.scalar name) entries)
  | .map (.undefined name) entries => constructLeaf_eq (.map (.undefined name) entries)

theorem constructEntries_eq : ∀ (seen : List κ) (entries : List (YamlNode × YamlNode)),
    constructEntries parser seen entries = stopped (visitEntries parser seen entries).1 (visitEntries parser seen entries).2
  | _, [] => rfl
  | seen, (key, value) :: rest => by
    rw [constructEntries, construct_eq key, construct_eq value, visitEntries]
    refine stopped_bind _ _ _ (checkKey_bind fun k hk => stopped_bind _ _ _ ?_)
    have hk : key.scalarValue parser = some k := hk
    rw [constructEntries_eq (k :: seen) rest, hk]
    exact stopped_bind_return _ _ _

end

theorem construct_scalarValue {node : YamlNode} {object : Option κ × List Generator} (h : node.construct parser = .ok object) :
    node.scalarValue parser = object.1 := by
  rw [construct_eq] at h
  exact congrArg Prod.fst (eq_of_stopped h)

theorem constructEntries_keyed {entries : List (YamlNode × YamlNode)} {seen : List κ} {generators : List Generator}
    (h : constructEntries parser seen entries = .ok generators) :
    ∃ keys : List κ, (entries.map fun entry => entry.1.scalarValue parser) = keys.map some ∧
      (keys.Pairwise fun a b => parser.equal a b = false) ∧ ∀ k ∈ keys, ∀ s ∈ seen, parser.equal s k = false := by
  induction entries generalizing seen generators with
  | nil => exact ⟨[], rfl, .nil, fun _ hk => by cases hk⟩
  | cons entry rest ih =>
    obtain ⟨key, value⟩ := entry
    obtain ⟨ofKey, k, -, inRest, hkey, hcheck, -, hrest, -⟩ := constructEntries_cons.1 h
    obtain ⟨keys, hkeys, hdistinct, hseen⟩ := ih hrest
    have hvalue : key.scalarValue parser = ofKey.1 := construct_scalarValue hkey
    cases hscalar : ofKey.1 with
    | none =>
      rw [hscalar] at hcheck
      cases hcheck
    | some k' =>
      rw [hscalar] at hcheck
      simp only [checkKey] at hcheck
      split_ifs at hcheck with hfound
      cases hcheck
      refine ⟨k :: keys, by rw [List.map_cons, List.map_cons, hkeys, hvalue, hscalar], ?_, ?_⟩
      · exact List.pairwise_cons.2 ⟨fun other hother => hseen other hother k List.mem_cons_self, hdistinct⟩
      · refine List.forall_mem_cons.2 ⟨fun s hs => ?_, fun other hother s hs => hseen other hother s (List.mem_cons_of_mem _ hs)⟩
        exact Bool.eq_false_iff.2 fun heq => hfound (List.any_eq_true.2 ⟨s, hs, heq⟩)

/-- A plain node holds another. -/
def Holds (node inner : YamlNode) : Prop := node.Has inner ∧ node.Plain

/-- A generator that will come upon a node, or that refuses its own. -/
def Awaits (inner : YamlNode) : Generator → Prop
  | .fill items => ∃ item ∈ items, Holds item inner
  | .refuse => True

/-- The mapping is well keyed, or waits in a generator. -/
def Settled (parser : YamlParser κ) (tag : YamlTag) (entries : List (YamlNode × YamlNode)) (generators : List Generator) : Prop :=
  WellKeyed parser entries ∨ ∃ generator ∈ generators, Awaits (.map tag entries) generator

section Settled

variable {tag : YamlTag} {entries : List (YamlNode × YamlNode)}

theorem Settled.mono {part whole : List Generator} (h : Settled parser tag entries part) (hsub : part ⊆ whole) :
    Settled parser tag entries whole :=
  h.imp_right fun ⟨generator, hin, hawaits⟩ => ⟨generator, hsub hin, hawaits⟩

/-- A mapping in a leaf is the leaf itself, or in a sequence that is still to be filled. -/
theorem leaf_settled {node : YamlNode} {object : Option κ × List Generator} (h : node.constructLeaf parser = .ok object)
    (hnode : ∀ own, node ≠ .map .map own) (hholds : Holds node (.map tag entries)) : Settled parser tag entries object.2 := by
  obtain ⟨hhas, hplain⟩ := hholds
  cases node with
  | scalar => cases hhas
  | seq own items =>
    cases hhas with
    | item hin hhas =>
      cases own with
      | seq =>
        cases h
        exact Or.inr ⟨.fill items, List.mem_singleton_self _, _, hin, hhas, fun _ h => hplain _ (.item hin h)⟩
      | map =>
        simp only [YamlNode.constructLeaf] at h
        split_ifs at h with hempty
        rw [List.isEmpty_iff.1 hempty] at hin
        cases hin
      | scalar name | undefined name => cases h
      | collection name => exact absurd (.seq name items) (hplain _ (.self _))
  | map own inner =>
    cases own with
    | map => exact absurd rfl (hnode inner)
    | seq =>
      cases h
      exact Or.inr ⟨.refuse, List.mem_singleton_self _, trivial⟩
    | collection name => exact absurd (.map name inner) (hplain _ (.self _))
    | scalar name =>
      simp only [YamlNode.constructLeaf] at h
      split_ifs at h with hvalue
      exact absurd (.scalar name hvalue) (hplain _ (.self _))
    | undefined name => cases h

mutual

/-- Every mapping of a node that is constructed is well keyed, or waits in a generator. -/
theorem construct_settled : ∀ {node : YamlNode} {object : Option κ × List Generator}, node.construct parser = .ok object →
    Holds node (.map tag entries) → Settled parser tag entries object.2
  | .map .map own, object, h, ⟨hhas, hplain⟩ => by
    obtain ⟨generators, hentries, h⟩ := bind_eq_ok_iff.1 h
    cases h
    cases hhas with
    | self =>
      obtain ⟨keys, hkeys, hdistinct, -⟩ := constructEntries_keyed hentries
      exact Or.inl ⟨keys, hkeys, hdistinct⟩
    | key hin hhas => exact constructEntries_settled hentries _ hin (Or.inl ⟨hhas, fun _ h => hplain _ (.key hin h)⟩)
    | value hin hhas => exact constructEntries_settled hentries _ hin (Or.inr ⟨hhas, fun _ h => hplain _ (.value hin h)⟩)
  | .scalar .., _, h, hholds => leaf_settled h (fun _ heq => by cases heq) hholds
  | .seq .., _, h, hholds => leaf_settled h (fun _ heq => by cases heq) hholds
  | .map .seq own, _, h, hholds => @leaf_settled κ parser _ _ (.map .seq own) _ h (fun _ heq => by cases heq) hholds
  | .map (.collection name) own, _, h, hholds =>
    @leaf_settled κ parser _ _ (.map (.collection name) own) _ h (fun _ heq => by cases heq) hholds
  | .map (.scalar name) own, _, h, hholds =>
    @leaf_settled κ parser _ _ (.map (.scalar name) own) _ h (fun _ heq => by cases heq) hholds
  | .map (.undefined name) own, _, h, hholds =>
    @leaf_settled κ parser _ _ (.map (.undefined name) own) _ h (fun _ heq => by cases heq) hholds

theorem constructEntries_settled : ∀ {own : List (YamlNode × YamlNode)} {seen : List κ} {generators : List Generator},
    constructEntries parser seen own = .ok generators → ∀ entry ∈ own,
      Holds entry.1 (.map tag entries) ∨ Holds entry.2 (.map tag entries) → Settled parser tag entries generators
  | [], _, _, _, _, hin, _ => by cases hin
  | (key, value) :: rest, seen, generators, h, entry, hin, hholds => by
    obtain ⟨ofKey, k, ofValue, inRest, hkey, -, hvalue, hrest, rfl⟩ := constructEntries_cons.1 h
    rcases List.mem_cons.1 hin with rfl | hin
    · rcases hholds with hholds | hholds
      · exact (construct_settled hkey hholds).mono fun _ hmem => by simp [hmem]
      · exact (construct_settled hvalue hholds).mono fun _ hmem => by simp [hmem]
    · exact (constructEntries_settled hrest entry hin hholds).mono fun _ hmem => by simp [hmem]

end

end Settled

end LoaderErrorsAux

/-! ## The loader -/

section Loader

variable {Γ : Ctx}

/-- The certificate files that are loaded: up to the first one that is refused. -/
def loadedFiles (parser : YamlParser κ) : List FileContent → List FileContent
  | [] => []
  | file :: rest =>
    match loadCertificateNode parser file with
    | .ok _ => file :: loadedFiles parser rest
    | .error _ => [file]

/-- The files that are loaded: of a directory the settings, and the certificate files where the settings are those of a directory. -/
def ConfigSource.loaded (parser : YamlParser κ) : ConfigSource → List FileContent
  | .file content => [content]
  | .directory settings certificates =>
    match loadDocument parser settings with
    | .error _ => [settings]
    | .ok entries =>
      if definesCertificates parser entries then [settings] else settings :: loadedFiles parser (sortedFiles certificates)

/-- The files of a source. -/
def ConfigSource.files : ConfigSource → List FileContent
  | .file content => [content]
  | .directory settings certificates => settings :: certificates.map (·.2)

namespace LoaderErrorsAux

end LoaderErrorsAux

open LoaderErrorsAux

namespace LoaderErrorsSample

/-- Every file holds the document; texts are constructed as they are, and the thirtieth of February raises. -/
def holding (document : YamlNode) : YamlParser String where
  parse _ := some document
  scalar tag text :=
    if tag = "timestamp" ∧ text = "2026-02-30" then .error (.raised (.of .valueError "day is out of range for month") rfl) else .ok text
  special _ := .error .yaml
  equal a b := a == b
  value := .str

def text (value : String) : YamlNode := .scalar (.scalar "str") value

/-- A repeated key before the date: `{a: x, a: y, renewed: 2026-02-30}`. -/
def repeated : YamlNode :=
  .map .map [(text "a", text "x"), (text "a", text "y"), (text "renewed", .scalar (.scalar "timestamp") "2026-02-30")]

end LoaderErrorsSample

open LoaderErrorsSample

end Loader

end OciAcmePublisher
