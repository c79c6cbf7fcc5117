import Mathlib.Algebra.GroupWithZero.Nat
import OciAcmePublisher.ConfigDocument

/-!
# Construction of YAML documents

What PyYAML's constructor and `_construct_mapping` make of a document's node tree, in the order they visit it. A mapping is constructed
at once, its keys and values in turn; a sequence is returned empty and filled by a generator, and the generators run in rounds after
the root is constructed. A node is constructed by its tag, whatever its kind.
-/

namespace OciAcmePublisher

/-- The constructor that a node's tag selects. -/
inductive YamlTag where
  /-- `_construct_mapping`. -/
  | map
  /-- `construct_yaml_seq`. -/
  | seq
  /-- That of `!!set`, `!!omap` or `!!pairs`. -/
  | collection (name : String)
  /-- That of a scalar. -/
  | scalar (name : String)
  /-- `construct_undefined`, as no constructor is registered for the tag. -/
  | undefined (name : String)
  deriving DecidableEq

/-- A node of a document. -/
inductive YamlNode where
  | scalar (tag : YamlTag) (text : String)
  | seq (tag : YamlTag) (items : List YamlNode)
  | map (tag : YamlTag) (entries : List (YamlNode × YamlNode))

/-- The tag of the key `=`. -/
def YamlTag.value : YamlTag := .undefined "tag:yaml.org,2002:value"

def YamlNode.tag : YamlNode → YamlTag
  | .scalar tag _ | .seq tag _ | .map tag _ => tag

/-- The mapping has a key `=`, where `construct_scalar` finds its text. -/
def hasValueKey (entries : List (YamlNode × YamlNode)) : Bool := entries.any fun entry => entry.1.tag = .value

/-- What stops a construction: a `YAMLError`, or an error that the loader's handler lets through. -/
inductive LoadFault where
  | yaml
  | raised (error : Exc) (other : error.isInstance .configurationError = false)

namespace LoadFault

/-- `key in mapping` of a list or a dictionary. -/
def unhashable : LoadFault := .raised (.of .typeError "unhashable type") rfl

/-- `for key_node, value_node in node.value` of a text. -/
def characters : LoadFault := .raised (.of .valueError "not enough values to unpack (expected 2, got 1)") rfl

/-- `for key_node, value_node in node.value` of a list of nodes. -/
def nodes : LoadFault := .raised (.of .typeError "cannot unpack non-iterable object") rfl

/-- The error that `_load_yaml_file` raises. -/
def error : LoadFault → Exc
  | yaml => .of .configurationError "invalid YAML configuration"
  | raised error _ => error

end LoadFault

/-- A generator that a construction leaves: it fills a list, or raises `ConstructorError` as its node is of another kind. -/
inductive Generator where
  | fill (items : List YamlNode)
  | refuse

/-- The YAML parser and its constructors of scalars. -/
structure YamlParser (κ : Type) where
  /-- The tree of the document, none where the parser raises `YAMLError`. -/
  parse : Bytes → Option YamlNode
  /-- What the constructor of a scalar's tag makes of a text. -/
  scalar : String → String → Except LoadFault κ
  /-- What the constructors make of a set, of an ordered map, of pairs, and of a mapping with a key `=` under a scalar's tag. -/
  special : YamlNode → Except LoadFault κ
  /-- Whether a lookup finds the first key for the second. -/
  equal : κ → κ → Bool
  value : κ → Yaml

variable {κ : Type}

section Constructor

variable (parser : YamlParser κ)

/-- The construction of a node that is no mapping for `_construct_mapping` to enter: a scalar's value, none for a list or a dictionary,
and the generators it leaves. -/
def YamlNode.constructLeaf : YamlNode → Except LoadFault (Option κ × List Generator)
  | .scalar (.scalar name) text => do return (some (← parser.scalar name text), [])
  | .scalar .map text => if text = "" then .ok (none, []) else .error .characters
  | .scalar .seq _ | .scalar (.collection _) _ => .ok (none, [.refuse])
  | .seq .seq items => .ok (none, [.fill items])
  | .seq .map items => if items.isEmpty then .ok (none, []) else .error .nodes
  -- `construct_scalar` refuses a sequence, and a mapping without the key `=`
  | .seq (.scalar _) _ => .error .yaml
  | node@(.map (.scalar _) entries) => if hasValueKey entries then do return (some (← parser.special node), []) else .error .yaml
  | .map .map _ => .ok (none, [])
  | .map .seq _ => .ok (none, [.refuse])
  | .scalar (.undefined _) _ | .seq (.undefined _) _ | .map (.undefined _) _ => .error .yaml
  | node@(.seq (.collection _) _) | node@(.map (.collection _) _) => do return (some (← parser.special node), [])

/-- `key in mapping`. -/
def checkKey (seen : List κ) : Option κ → Except LoadFault κ
  | some k => if seen.any (parser.equal · k) then .error .yaml else .ok k
  | none => .error .unhashable

mutual

/-- `construct_object`. -/
def YamlNode.construct : YamlNode → Except LoadFault (Option κ × List Generator)
  | .map .map entries => do return (none, ← constructEntries [] entries)
  | node => node.constructLeaf parser

/-- The loop of `_construct_mapping`. -/
def constructEntries (seen : List κ) : List (YamlNode × YamlNode) → Except LoadFault (List Generator)
  | [] => .ok []
  | (key, value) :: rest => do
    let ofKey ← key.construct
    let k ← checkKey parser seen ofKey.1
    let ofValue ← value.construct
    let inRest ← constructEntries (k :: seen) rest
    return ofKey.2 ++ ofValue.2 ++ inRest

end

/-- `construct_sequence`. -/
def constructItems (items : List YamlNode) : Except LoadFault (List Generator) := do
  let objects ← items.mapM (YamlNode.construct parser)
  return objects.flatMap (·.2)

section Sizes

variable {parser}

/-- One turn of the loop, where nothing stops it. -/
theorem constructEntries_cons {seen : List κ} {key value : YamlNode} {rest : List (YamlNode × YamlNode)} {generators : List Generator} :
    constructEntries parser seen ((key, value) :: rest) = .ok generators ↔
      ∃ ofKey k ofValue inRest, key.construct parser = .ok ofKey ∧ checkKey parser seen ofKey.1 = .ok k ∧
        value.construct parser = .ok ofValue ∧ constructEntries parser (k :: seen) rest = .ok inRest ∧
          ofKey.2 ++ ofValue.2 ++ inRest = generators := by
  rw [constructEntries]
  constructor
  · intro h
    obtain ⟨ofKey, hkey, h⟩ := bind_eq_ok_iff.1 h
    obtain ⟨k, hk, h⟩ := bind_eq_ok_iff.1 h
    obtain ⟨ofValue, hvalue, h⟩ := bind_eq_ok_iff.1 h
    obtain ⟨inRest, hrest, h⟩ := bind_eq_ok_iff.1 h
    cases h
    exact ⟨ofKey, k, ofValue, inRest, hkey, hk, hvalue, hrest, rfl⟩
  · rintro ⟨ofKey, k, ofValue, inRest, hkey, hk, hvalue, hrest, rfl⟩
    rw [hkey]
    show (checkKey parser seen ofKey.1 >>= fun k => _) = _
    rw [hk, hvalue]
    show (constructEntries parser (k :: seen) rest >>= fun inRest => pure (ofKey.2 ++ ofValue.2 ++ inRest)) = _
    rw [hrest]
    rfl

theorem pending_append {left right : List Generator} {n m : Nat} (hleft : (left.map sizeOf).sum ≤ n) (hright : (right.map sizeOf).sum ≤ m) :
    ((left ++ right).map sizeOf).sum ≤ n + m := by
  rw [List.map_append, List.sum_append]
  exact Nat.add_le_add hleft hright

/-- A node that is no mapping leaves at most one generator, a sequence the one that fills it. -/
theorem YamlNode.constructLeaf_generators {node : YamlNode} {object : Option κ × List Generator}
    (h : node.constructLeaf parser = .ok object) :
    object.2 = [] ∨ object.2 = [.refuse] ∨ ∃ items, node = .seq .seq items ∧ object.2 = [.fill items] := by
  cases node with
  | scalar tag text =>
    cases tag with
    | scalar name =>
      obtain ⟨k, -, h⟩ := bind_eq_ok_iff.1 h
      cases h
      exact Or.inl rfl
    | map =>
      simp only [constructLeaf] at h
      split_ifs at h
      cases h
      exact Or.inl rfl
    | seq | collection name =>
      cases h
      exact Or.inr (Or.inl rfl)
    | undefined name => cases h
  | seq tag items =>
    cases tag with
    | seq =>
      cases h
      exact Or.inr (Or.inr ⟨items, rfl, rfl⟩)
    | map =>
      simp only [constructLeaf] at h
      split_ifs at h
      cases h
      exact Or.inl rfl
    | scalar name | undefined name => cases h
    | collection name =>
      obtain ⟨k, -, h⟩ := bind_eq_ok_iff.1 h
      cases h
      exact Or.inl rfl
  | map tag entries =>
    cases tag with
    | map =>
      cases h
      exact Or.inl rfl
    | seq =>
      cases h
      exact Or.inr (Or.inl rfl)
    | undefined name => cases h
    | scalar name =>
      simp only [constructLeaf] at h
      split_ifs at h
      obtain ⟨k, -, h⟩ := bind_eq_ok_iff.1 h
      cases h
      exact Or.inl rfl
    | collection name =>
      obtain ⟨k, -, h⟩ := bind_eq_ok_iff.1 h
      cases h
      exact Or.inl rfl

theorem YamlNode.constructLeaf_pending {node : YamlNode} {object : Option κ × List Generator}
    (h : node.constructLeaf parser = .ok object) : (object.2.map sizeOf).sum ≤ sizeOf node := by
  rcases constructLeaf_generators h with hnone | hrefuse | ⟨items, rfl, hfill⟩
  · rw [hnone]
    exact Nat.zero_le _
  · rw [hrefuse]
    cases node <;> simp <;> omega
  · rw [hfill]
    simp

mutual

theorem YamlNode.construct_pending : ∀ {node : YamlNode} {object : Option κ × List Generator},
    node.construct parser = .ok object → (object.2.map sizeOf).sum ≤ sizeOf node
  | .map .map entries, object, h => by
    obtain ⟨generators, hentries, h⟩ := bind_eq_ok_iff.1 h
    cases h
    have hsize := constructEntries_pending hentries
    simp only [YamlNode.map.sizeOf_spec]
    omega
  | .scalar _ _, _, h | .seq _ _, _, h => YamlNode.constructLeaf_pending h
  | .map .seq _, _, h | .map (.collection _) _, _, h | .map (.scalar _) _, _, h | .map (.undefined _) _, _, h =>
    @YamlNode.constructLeaf_pending κ parser _ _ h

theorem constructEntries_pending : ∀ {entries : List (YamlNode × YamlNode)} {seen : List κ} {generators : List Generator},
    constructEntries parser seen entries = .ok generators → (generators.map sizeOf).sum ≤ sizeOf entries
  | [], _, _, h => by
    cases h
    exact Nat.zero_le _
  | (key, value) :: rest, seen, generators, h => by
    obtain ⟨ofKey, k, ofValue, inRest, hkey, -, hvalue, hrest, rfl⟩ := constructEntries_cons.1 h
    have hsize := pending_append (pending_append (YamlNode.construct_pending hkey) (YamlNode.construct_pending hvalue))
      (constructEntries_pending hrest)
    simp only [List.cons.sizeOf_spec, Prod.mk.sizeOf_spec]
    omega

end

/-- The first item, and the others. -/
theorem constructItems_cons {item : YamlNode} {rest : List YamlNode} {generators : List Generator} :
    constructItems parser (item :: rest) = .ok generators ↔
      ∃ object inRest, item.construct parser = .ok object ∧ constructItems parser rest = .ok inRest ∧ object.2 ++ inRest = generators := by
  unfold constructItems
  rw [List.mapM_cons]
  constructor
  · intro h
    obtain ⟨objects, hobjects, h⟩ := bind_eq_ok_iff.1 h
    cases h
    obtain ⟨object, hobject, hobjects⟩ := bind_eq_ok_iff.1 hobjects
    obtain ⟨others, hothers, hobjects⟩ := bind_eq_ok_iff.1 hobjects
    cases hobjects
    exact ⟨object, others.flatMap (·.2), hobject, bind_eq_ok_iff.2 ⟨others, hothers, rfl⟩, rfl⟩
  · rintro ⟨object, inRest, hobject, hrest, rfl⟩
    obtain ⟨others, hothers, h⟩ := bind_eq_ok_iff.1 hrest
    cases h
    rw [hobject, hothers]
    rfl

theorem constructItems_pending {items : List YamlNode} {generators : List Generator} (h : constructItems parser items = .ok generators) :
    (generators.map sizeOf).sum ≤ sizeOf items := by
  induction items generalizing generators with
  | nil =>
    cases h
    exact Nat.zero_le _
  | cons item rest ih =>
    obtain ⟨object, inRest, hitem, hrest, rfl⟩ := constructItems_cons.1 h
    have hsize := pending_append (YamlNode.construct_pending hitem) (ih hrest)
    rw [List.cons.sizeOf_spec]
    omega

end Sizes

/-- The generators run in the order they were left; those that running them leaves follow. -/
def runGenerators : List Generator → Except LoadFault Unit
  | [] => .ok ()
  | .refuse :: _ => .error .yaml
  | .fill items :: queue =>
    match _ : constructItems parser items with
    | .error fault => .error fault
    | .ok generators => runGenerators (queue ++ generators)
termination_by queue => (queue.map sizeOf).sum
decreasing_by
  rename_i hconstructed
  have hpending := constructItems_pending hconstructed
  simp only [List.map_append, List.sum_append, List.map_cons, List.sum_cons, Generator.fill.sizeOf_spec]
  omega

/-- `construct_document`. -/
def YamlNode.constructDocument (node : YamlNode) : Except LoadFault Unit := do
  let object ← node.construct parser
  runGenerators parser object.2

/-! ## Documents -/

/-- The value of a node that is constructed to a scalar. -/
def YamlNode.scalarValue (node : YamlNode) : Option κ :=
  match node.constructLeaf parser with
  | .ok object => object.1
  | .error _ => none

/-- The entries of the dictionary that a node is constructed to. -/
def YamlNode.dict : YamlNode → Option (List (YamlNode × YamlNode))
  | .map .map entries => some entries
  | .scalar .map _ | .seq .map _ => some []
  | _ => none

mutual

/-- The constructed value as the validators see it; a dictionary with a key that is no text is refused by all of them. -/
def YamlNode.toYaml : YamlNode → Yaml
  | .map .map entries =>
    match entriesToYaml entries with
    | some fields => .map fields
    | none => .other
  | .seq .seq items => .seq (itemsToYaml items)
  | .scalar .map _ | .seq .map _ => .map []
  | node =>
    match node.scalarValue parser with
    | some k => parser.value k
    | none => .other

def itemsToYaml : List YamlNode → List Yaml
  | [] => []
  | item :: rest => item.toYaml :: itemsToYaml rest

/-- The entries of a dictionary, none where some key is no text. -/
def entriesToYaml : List (YamlNode × YamlNode) → Option (List (String × Yaml))
  | [] => some []
  | (key, node) :: rest =>
    match key.toYaml, entriesToYaml rest with
    | .str text, some fields => some ((text, node.toYaml) :: fields)
    | _, _ => none

end

/-- The text of a key. -/
def YamlNode.keyText (key : YamlNode) : Option String := (key.toYaml parser).text

end Constructor

section Loader

variable (Γ : Ctx) (parser : YamlParser κ)

/-- A file as `read_bytes` finds it, none where it raises `OSError`. -/
abbrev FileContent := Option Bytes

/-- `_load_yaml_file`: the entries of the root mapping. -/
def loadDocument (file : FileContent) : Except Exc (List (YamlNode × YamlNode)) :=
  match file with
  | none => .error (.of .configurationError "unable to read configuration file")
  | some raw =>
    if maxConfigBytes < raw.length then
      .error (.of .configurationError "configuration file exceeds maximum size")
    else
      match parser.parse raw with
      | none => .error (.of .configurationError "invalid YAML configuration")
      | some node =>
        match node.constructDocument parser, node.dict with
        | .error fault, _ => .error fault.error
        | .ok (), some entries => .ok entries
        | .ok (), none => .error (.of .configurationError "configuration root must be a mapping")

/-- `_validate_config`. -/
def validateDocument (document : Yaml) : Except Exc AppConfig :=
  match document.appConfig Γ with
  | some config => .ok config
  | none => .error (.of .configurationError "invalid configuration fields: ")

/-- The certificate mapping of a certificate file. -/
def loadCertificateNode (file : FileContent) : Except Exc Yaml := do
  match ← loadDocument parser file with
  | [(key, value)] =>
    if key.keyText parser = some "certificate" ∧ value.dict.isSome then .ok (value.toYaml parser)
    else .error (.of .configurationError "certificate files must contain exactly one certificate mapping")
  | _ => .error (.of .configurationError "certificate files must contain exactly one certificate mapping")

/-- What the path of a configuration leads to: a file, or a directory with its settings and its certificate files by name. -/
inductive ConfigSource where
  | file (content : FileContent)
  | directory (settings : FileContent) (certificates : List (String × FileContent))

/-- `sorted(..)` of the certificate files. -/
def sortedFiles (certificates : List (String × FileContent)) : List FileContent :=
  (certificates.mergeSort fun a b => decide (a.1 ≤ b.1)).map (·.2)

/-- `"certificates" in settings or "certificate" in settings`. -/
def definesCertificates (entries : List (YamlNode × YamlNode)) : Bool :=
  entries.any fun entry => entry.1.keyText parser = some "certificates" || entry.1.keyText parser = some "certificate"

/-- The settings with the certificates of the directory, validated. -/
def composeSettings (certificates : List (String × FileContent)) (entries : List (YamlNode × YamlNode)) : Except Exc AppConfig :=
  if definesCertificates parser entries then .error (.of .configurationError "settings.yaml must not define certificates")
  else if certificates = [] then .error (.of .configurationError "configuration directory contains no certificate files")
  else do
    let documents ← (sortedFiles certificates).mapM (loadCertificateNode parser)
    match entriesToYaml parser entries with
    | some fields => validateDocument Γ (.map (fields ++ [("certificates", .seq documents)]))
    | none => validateDocument Γ .other

/-- `load_config`. -/
def ConfigSource.load : ConfigSource → Except Exc AppConfig
  | .file content => do
    let entries ← loadDocument parser content
    validateDocument Γ ((YamlNode.map .map entries).toYaml parser)
  -- `_load_config_directory`
  | .directory settings certificates => do
    let entries ← loadDocument parser settings
    composeSettings Γ parser certificates entries

end Loader

end OciAcmePublisher
