import Mathlib.Algebra.GroupWithZero.Nat
import Mathlib.Data.List.Nodup
import Mathlib.Data.List.Sort
import OciAcmePublisher.Scanning.Readers

/-!
# JSON

The text `json.dumps` makes of a value, and the value `json.loads` makes of a text. A text is ASCII where it is written; keys are
sorted.
-/

namespace Scanning.Json

/-- A value. Of a dictionary, the keys come in their order. -/
inductive Value where
  | null
  | bool (value : Bool)
  | int (value : Int)
  | text (value : String)
  | array (items : List Value)
  | object (members : List (String × Value))
  /-- A number that is no `int`, or a text or a dictionary with a surrogate on its own. -/
  | other

/-! ## Writing -/

/-- `\uXXXX`. -/
def unitText (n : Nat) : List Char :=
  ['\\', 'u', (n / 4096).digitChar, (n / 256 % 16).digitChar, (n / 16 % 16).digitChar, (n % 16).digitChar]

/-- The escapes of one letter. -/
def letterOf : Char → Option Char
  | '"' => some '"'
  | '\\' => some '\\'
  | '\n' => some 'n'
  | '\r' => some 'r'
  | '\t' => some 't'
  | '\x0c' => some 'f'
  | '\x08' => some 'b'
  | _ => none

/-- A character in a text; above the first plane it is a pair of surrogates. -/
def escape (c : Char) : List Char :=
  match letterOf c with
  | some letter => ['\\', letter]
  | none =>
    if ' ' ≤ c ∧ c ≤ '~' then [c]
    else if c.toNat < 0x10000 then unitText c.toNat
    else unitText (0xd800 + (c.toNat - 0x10000) / 1024) ++ unitText (0xdc00 + (c.toNat - 0x10000) % 1024)

def quotedText (text : String) : List Char := '"' :: (text.toList.flatMap escape ++ ['"'])

def integerText : Int → List Char
  | .ofNat n => Nat.toDigits 10 n
  | .negSucc n => '-' :: Nat.toDigits 10 (n + 1)

/-- A new line and its indentation, where there is any. -/
def gap (indent : Option Nat) (level : Nat) : List Char :=
  match indent with
  | none => []
  | some width => '\n' :: List.replicate (width * level) ' '

/-- What follows the comma between two items. -/
def between (indent : Option Nat) (level : Nat) : List Char := if indent = none then [' '] else gap indent level

mutual

def render (indent : Option Nat) (level : Nat) : Value → List Char
  | .null => ['n', 'u', 'l', 'l']
  | .bool true => ['t', 'r', 'u', 'e']
  | .bool false => ['f', 'a', 'l', 's', 'e']
  | .int n => integerText n
  | .text text => quotedText text
  | .array [] => ['[', ']']
  | .array (item :: items) =>
    '[' :: (gap indent (level + 1) ++ (render indent (level + 1) item ++ renderItems indent level items))
  | .object [] => ['\x7b', '\x7d']
  | .object ((key, value) :: members) =>
    '\x7b' :: (gap indent (level + 1) ++ (quotedText key ++ (':' :: ' ' :: (render indent (level + 1) value ++
      renderMembers indent level members))))
  | .other => []

/-- The items after the first, and the end. -/
def renderItems (indent : Option Nat) (level : Nat) : List Value → List Char
  | [] => gap indent level ++ [']']
  | item :: items =>
    ',' :: (between indent (level + 1) ++ (render indent (level + 1) item ++ renderItems indent level items))

/-- The members after the first, and the end. -/
def renderMembers (indent : Option Nat) (level : Nat) : List (String × Value) → List Char
  | [] => gap indent level ++ ['\x7d']
  | (key, value) :: members =>
    ',' :: (between indent (level + 1) ++ (quotedText key ++ (':' :: ' ' :: (render indent (level + 1) value ++
      renderMembers indent level members))))

end

/-- The order of the keys. -/
def before (a b : String × Value) : Prop := a.1 ≤ b.1

instance : DecidableRel before := fun a b => inferInstanceAs (Decidable (a.1 ≤ b.1))

mutual

/-- The value with all its keys in order. -/
def sorted : Value → Value
  | .array items => .array (sortedItems items)
  | .object members => .object ((sortedMembers members).insertionSort before)
  | value => value

def sortedItems : List Value → List Value
  | [] => []
  | item :: items => sorted item :: sortedItems items

def sortedMembers : List (String × Value) → List (String × Value)
  | [] => []
  | (key, value) :: members => (key, sorted value) :: sortedMembers members

end

/-- `json.dumps(value, indent=indent, sort_keys=True)`. -/
def dumps (indent : Option Nat) (value : Value) : List Char := render indent 0 (sorted value)

/-! ## Reading -/

/-- `[ \t\n\r]`. -/
def blank (c : Char) : Bool := c = ' ' || c = '\t' || c = '\n' || c = '\r'

/-- The value of a hexadecimal digit. -/
def hexValue (c : Char) : Option Nat :=
  if c.isDigit then some (c.toNat - 48)
  else if 'a' ≤ c ∧ c ≤ 'f' then some (c.toNat - 87)
  else if 'A' ≤ c ∧ c ≤ 'F' then some (c.toNat - 55)
  else none

/-- The unit that four hexadecimal digits name. -/
def unitOf (a b c d : Char) : Option Nat := do
  let a ← hexValue a
  let b ← hexValue b
  let c ← hexValue c
  let d ← hexValue d
  return 4096 * a + 256 * b + 16 * c + d

/-- The character of an escape of one letter. -/
def characterOf : Char → Option Char
  | '"' => some '"'
  | '\\' => some '\\'
  | '/' => some '/'
  | 'n' => some '\n'
  | 'r' => some '\r'
  | 't' => some '\t'
  | 'f' => some '\x0c'
  | 'b' => some '\x08'
  | _ => none

/-- Points before those that are read. -/
def put (found : List Nat) (read : Option (List Nat × List Char)) : Option (List Nat × List Char) :=
  read.map fun read => (found ++ read.1, read.2)

/-- The code points up to the closing quote, those of surrogates among them. -/
def points : List Char → Option (List Nat × List Char)
  | [] => none
  | '"' :: l => some ([], l)
  | '\\' :: 'u' :: a :: b :: c :: d :: l => (unitOf a b c d).bind fun unit => put [unit] (points l)
  | '\\' :: letter :: l => (characterOf letter).bind fun c => put [c.toNat] (points l)
  | c :: l => if c.toNat < 32 then none else put [c.toNat] (points l)

def isHigh (point : Nat) : Bool := 0xd800 ≤ point && point ≤ 0xdbff

def isLow (point : Nat) : Bool := 0xdc00 ≤ point && point ≤ 0xdfff

/-- The characters of the points, where every surrogate is one of a pair. -/
def charactersOf : List Nat → Option (List Char)
  | [] => some []
  | point :: l =>
    if isHigh point then
      match l with
      | low :: l =>
        if isLow low then (charactersOf l).map (Char.ofNat (0x10000 + (point - 0xd800) * 1024 + (low - 0xdc00)) :: ·) else none
      | [] => none
    else if isLow point then none
    else (charactersOf l).map (Char.ofNat point :: ·)

/-- The text up to the closing quote, if it is one of characters. -/
def readText (l : List Char) : Option (Option String × List Char) :=
  (points l).map fun read => ((charactersOf read.1).map String.ofList, read.2)

def fraction : List Char → List Char
  | '.' :: d :: l => if d.isDigit then l.dropWhile Char.isDigit else '.' :: d :: l
  | l => l

/-- What is left behind the digits of an exponent. -/
def exponentDigits (l : List Char) : Option (List Char) :=
  match l with
  | d :: l => if d.isDigit then some (l.dropWhile Char.isDigit) else none
  | [] => none

def exponent : List Char → List Char
  | e :: s :: l =>
    if e = 'e' ∨ e = 'E' then (exponentDigits (if s = '+' ∨ s = '-' then l else s :: l)).getD (e :: s :: l) else e :: s :: l
  | l => l

def readNatural : List Char → Option (Nat × List Char)
  | '0' :: l => some (0, l)
  | d :: l =>
    if d.isDigit then some (Nat.ofDigitChars 10 (d :: l.takeWhile Char.isDigit) 0, l.dropWhile Char.isDigit) else none
  | [] => none

/-- The number behind its sign: an `int` where neither a fraction nor an exponent follows. -/
def readUnsigned (negative : Bool) (l : List Char) : Option (Value × List Char) := do
  let (n, l) ← readNatural l
  let rest := exponent (fraction l)
  return (if rest.length = l.length then .int (if negative then -n else n) else .other, rest)

/-- What is no text, no list and no dictionary. -/
def readScalar : List Char → Option (Value × List Char)
  | 'n' :: 'u' :: 'l' :: 'l' :: l => some (.null, l)
  | 't' :: 'r' :: 'u' :: 'e' :: l => some (.bool true, l)
  | 'f' :: 'a' :: 'l' :: 's' :: 'e' :: l => some (.bool false, l)
  | 'N' :: 'a' :: 'N' :: l => some (.other, l)
  | 'I' :: 'n' :: 'f' :: 'i' :: 'n' :: 'i' :: 't' :: 'y' :: l => some (.other, l)
  | '-' :: 'I' :: 'n' :: 'f' :: 'i' :: 'n' :: 'i' :: 't' :: 'y' :: l => some (.other, l)
  | '-' :: l => readUnsigned true l
  | l => readUnsigned false l

/-- `dict[key] = value`. -/
def setMember (members : List (String × Value)) (member : String × Value) : List (String × Value) :=
  if members.any (·.1 == member.1) then members.map fun other => if other.1 == member.1 then member else other
  else members ++ [member]

/-- The dictionary of the pairs. -/
def dictionary (pairs : List (Option String × Value)) : Value :=
  match pairs.mapM fun pair => pair.1.map fun key => (key, pair.2) with
  | some members => .object (members.foldl setMember [])
  | none => .other

/-- The key of a member, the colon and the blanks around it. -/
def readKey : List Char → Option (Option String × List Char)
  | '"' :: l =>
    match readText l with
    | none => none
    | some (key, l) =>
      match l.dropWhile blank with
      | ':' :: l => some (key, l.dropWhile blank)
      | _ => none
  | _ => none

mutual

/-- A value, where it needs no more nested steps than given. -/
def readValue : Nat → List Char → Option (Value × List Char)
  | 0, _ => none
  | _ + 1, '"' :: l => (readText l).map fun (text, rest) => (text.elim .other .text, rest)
  | steps + 1, '[' :: l =>
    match l.dropWhile blank with
    | ']' :: rest => some (.array [], rest)
    | l => (readItems steps l).map fun (items, rest) => (.array items, rest)
  | steps + 1, '\x7b' :: l =>
    match l.dropWhile blank with
    | '\x7d' :: rest => some (.object [], rest)
    | l => (readMembers steps l).map fun (pairs, rest) => (dictionary pairs, rest)
  | _ + 1, l => readScalar l

/-- The items of a list, from the first on. -/
def readItems : Nat → List Char → Option (List Value × List Char)
  | 0, _ => none
  | steps + 1, l =>
    match readValue steps l with
    | none => none
    | some (item, l) =>
      match l.dropWhile blank with
      | ',' :: l => (readItems steps (l.dropWhile blank)).map fun (items, rest) => (item :: items, rest)
      | ']' :: rest => some ([item], rest)
      | _ => none

/-- The members of a dictionary, from the first on. -/
def readMembers : Nat → List Char → Option (List (Option String × Value) × List Char)
  | 0, _ => none
  | steps + 1, l =>
    match readKey l with
    | none => none
    | some (key, l) =>
      match readValue steps l with
      | none => none
      | some (value, l) =>
        match l.dropWhile blank with
        | ',' :: l => (readMembers steps (l.dropWhile blank)).map fun (pairs, rest) => ((key, value) :: pairs, rest)
        | '\x7d' :: rest => some ([(key, value)], rest)
        | _ => none

end

/-- `json.loads(text)`; none where the text is no JSON. -/
def loads (text : List Char) : Option Value :=
  match readValue text.length (text.dropWhile blank) with
  | some (value, rest) => if rest.all blank then some value else none
  | none => none

/-! ## Limits -/

mutual

/-- The value is nested less deep than `depth`, has no number that is no `int`, and no `int` of more digits than `int` reads. -/
def Supported : Nat → Value → Bool
  | _, .int n => n.natAbs < 10 ^ 4300
  | depth + 1, .array items => AllSupported depth items
  | depth + 1, .object members => MembersSupported depth members
  | 0, .array _ | 0, .object _ | _, .other => false
  | _, _ => true

def AllSupported : Nat → List Value → Bool
  | _, [] => true
  | depth, item :: items => Supported depth item && AllSupported depth items

def MembersSupported : Nat → List (String × Value) → Bool
  | _, [] => true
  | depth, (_, value) :: members => Supported depth value && MembersSupported depth members

end

end Scanning.Json
