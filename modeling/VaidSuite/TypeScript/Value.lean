import VaidSuite.Json
import VaidSuite.Lib.Binary64
import VaidSuite.Lib.InsertionMap
import VaidSuite.Lib.JsonText

/-! The JavaScript values that a parsed JSON document is made of, and what the language
does with them. An operation that can throw returns an `Except`. -/
namespace VaidSuite.TypeScript

abbrev CodeUnit := Fin 0x10000

instance neZero_codeUnits : NeZero 0x10000 := ⟨by decide⟩

abbrev JsStr := List CodeUnit

/-- The code units of a character. -/
def utf16 (c : Char) : JsStr :=
  if c.toNat < 0x10000 then [Fin.ofNat 0x10000 c.toNat]
  else [Fin.ofNat 0x10000 (0xd800 + (c.toNat - 0x10000) / 0x400),
    Fin.ofNat 0x10000 (0xdc00 + (c.toNat - 0x10000) % 0x400)]

/-- The string that a literal of the source denotes. -/
def js (s : String) : JsStr := s.toList.flatMap utf16

def isHighSurrogate (c : CodeUnit) : Bool := 0xd800 ≤ c.val && c.val < 0xdc00
def isLowSurrogate (c : CodeUnit) : Bool := 0xdc00 ≤ c.val && c.val < 0xe000

/-- The UTF-8 form that `TextEncoder` gives a string: a lone surrogate is replaced. -/
def encode : JsStr → Bytes
  | [] => []
  | c :: s =>
    if isHighSurrogate c then
      match s with
      | d :: t =>
        if isLowSurrogate d then
          String.utf8EncodeChar
            (Char.ofNat (0x10000 + (c.val - 0xd800) * 0x400 + (d.val - 0xdc00))) ++ encode t
        else String.utf8EncodeChar (Char.ofNat 0xfffd) ++ encode (d :: t)
      | [] => String.utf8EncodeChar (Char.ofNat 0xfffd)
    else if isLowSurrogate c then String.utf8EncodeChar (Char.ofNat 0xfffd) ++ encode s
    else String.utf8EncodeChar (Char.ofNat c.val) ++ encode s

/-- What `TextDecoder` expects next: how many more bytes, of which the first lies between
the bounds, and the code point so far. -/
structure DecoderState where
  needed : Nat
  point : Nat
  lower : UInt8
  upper : UInt8

/-- What a byte at the start of a character gives, and what is expected then. -/
def leadByte (b : UInt8) : JsStr × DecoderState :=
  if b < 0x80 then ([Fin.ofNat 0x10000 b.toNat], ⟨0, 0, 0x80, 0xbf⟩)
  else if 0xc2 ≤ b ∧ b ≤ 0xdf then ([], ⟨1, b.toNat % 0x20, 0x80, 0xbf⟩)
  else if 0xe0 ≤ b ∧ b ≤ 0xef then
    ([], ⟨2, b.toNat % 0x10, if b = 0xe0 then 0xa0 else 0x80, if b = 0xed then 0x9f else 0xbf⟩)
  else if 0xf0 ≤ b ∧ b ≤ 0xf4 then
    ([], ⟨3, b.toNat % 8, if b = 0xf0 then 0x90 else 0x80, if b = 0xf4 then 0x8f else 0xbf⟩)
  else ([0xfffd], ⟨0, 0, 0x80, 0xbf⟩)

def decodeFrom (state : DecoderState) : Bytes → JsStr
  | [] => if state.needed = 0 then [] else [0xfffd]
  | b :: bytes =>
    if state.needed = 0 then (leadByte b).1 ++ decodeFrom (leadByte b).2 bytes
    else if b < state.lower ∨ state.upper < b then
      0xfffd :: ((leadByte b).1 ++ decodeFrom (leadByte b).2 bytes)
    else
      let point := state.point * 0x40 + b.toNat % 0x40
      if state.needed = 1 then utf16 (Char.ofNat point) ++ decodeFrom ⟨0, 0, 0x80, 0xbf⟩ bytes
      else decodeFrom ⟨state.needed - 1, point, 0x80, 0xbf⟩ bytes

/-- `new TextDecoder().decode(bytes)`. What is not UTF-8 is replaced, and a leading byte
order mark is dropped. -/
def decode (bytes : Bytes) : JsStr :=
  match decodeFrom ⟨0, 0, 0x80, 0xbf⟩ bytes with
  | 0xfeff :: s => s
  | s => s

/-- What the modelled code can throw. -/
inductive JsException where
  | typeError
  | jcsError
  | malformedDocument (message : JsStr)
  deriving DecidableEq

abbrev Throws (α : Type) := Except JsException α

/-- A value. Two objects or arrays are never the same one. -/
inductive JsValue where
  | undefined
  | null
  | bool (b : Bool)
  | num (bits : Binary64.Bits)
  | str (s : JsStr)
  | arr (items : List JsValue)
  | obj (members : List (JsStr × JsValue))

abbrev Members := List (JsStr × JsValue)

/-- `o.key`. -/
def Members.get (o : Members) (key : String) : JsValue := (o.lookup (js key)).getD .undefined

namespace JsValue

def asStr : JsValue → Option JsStr
  | .str s => some s
  | _ => none

def ofNat (n : Nat) : JsValue := .num (Binary64.ofNat n)

/-- `a === b`. -/
def strictEq : JsValue → JsValue → Bool
  | .undefined, .undefined => true
  | .null, .null => true
  | .bool a, .bool b => a == b
  | .num a, .num b => Binary64.eq a b
  | .str a, .str b => a == b
  | _, _ => false

/-- The comparison of `includes`: as `===`, but a NaN is itself. -/
def sameValueZero : JsValue → JsValue → Bool
  | .num a, .num b => Binary64.eq a b || Binary64.isNaN a && Binary64.isNaN b
  | a, b => strictEq a b

def truthy : JsValue → Bool
  | .undefined | .null => false
  | .bool b => b
  | .num b => !Binary64.isZero b && !Binary64.isNaN b
  | .str s => !s.isEmpty
  | .arr _ | .obj _ => true

/-- `v ?? other`. -/
def orElse : JsValue → JsValue → JsValue
  | .undefined, other | .null, other => other
  | v, _ => v

@[simp] theorem strictEq_str (s t : JsStr) : strictEq (.str s) (.str t) = (s == t) := rfl

end JsValue

def unitsOf (t : JsonText.Text) : JsStr := t.map (Fin.ofNat 0x10000)

def stringOf (spelling : JsonText.Text) : JsStr := unitsOf (JsonText.unescape spelling)

def numberOf (spelling : JsonText.Text) : Binary64.Bits :=
  let d := JsonText.decimal spelling
  Binary64.ofDecimal d.negative d.digits d.exponent

mutual

/-- The value of a tree. The last of several members of one name is kept. -/
def ofTree : JsonText.Tree → JsValue
  | .null => .null
  | .bool b => .bool b
  | .num spelling => .num (numberOf spelling)
  | .str spelling => .str (stringOf spelling)
  | .arr items => .arr (ofItems items)
  | .obj members => .obj (ofMembers [] members)

def ofItems : List JsonText.Tree → List JsValue
  | [] => []
  | t :: items => ofTree t :: ofItems items

def ofMembers (built : Members) : List (JsonText.Text × JsonText.Tree) → Members
  | [] => built
  | (name, t) :: members => ofMembers (InsertionMap.set (stringOf name) (ofTree t) built) members

end

theorem ofItems_eq (items : List JsonText.Tree) : ofItems items = items.map ofTree := by
  induction items with
  | nil => rw [ofItems, List.map_nil]
  | cons t items ih => rw [ofItems, ih, List.map_cons]

theorem ofMembers_eq (members : List (JsonText.Text × JsonText.Tree)) : ofMembers [] members =
    (InsertionMap.ofList (fun m => stringOf m.1) members).map
      (Prod.map id (fun m => ofTree m.2)) := by
  have folds : ∀ built, ofMembers built members = members.foldl
      (fun built m => InsertionMap.set (stringOf m.1) (ofTree m.2) built) built := by
    induction members with
    | nil => intro built; rw [ofMembers, List.foldl_nil]
    | cons m members ih =>
      intro built
      obtain ⟨name, t⟩ := m
      rw [ofMembers, ih, List.foldl_cons]
  rw [folds, InsertionMap.foldl_set_map (fun m : JsonText.Text × JsonText.Tree => stringOf m.1)]

mutual

theorem ofTree_merged : ∀ t : JsonText.Tree, ofTree (t.merged stringOf) = ofTree t
  | .null | .bool _ | .num _ | .str _ => by simp [JsonText.Tree.merged]
  | .arr items => by
    rw [JsonText.Tree.merged, ofTree, ofTree, ofItems_eq, ofItems_eq, JsonText.mergedItems_eq,
      List.map_map]
    exact congrArg JsValue.arr (List.map_congr_left (ofItems_merged items))
  | .obj members => by
    rw [JsonText.Tree.merged, ofTree, ofTree, ofMembers_eq, ofMembers_eq,
      JsonText.ofList_merged stringOf (ofMembers_merged members)]

theorem ofItems_merged : ∀ items : List JsonText.Tree,
    ∀ t ∈ items, ofTree (t.merged stringOf) = ofTree t
  | [] => by simp
  | t :: items => List.forall_mem_cons.mpr ⟨ofTree_merged t, ofItems_merged items⟩

theorem ofMembers_merged : ∀ members : List (JsonText.Text × JsonText.Tree),
    ∀ m ∈ members, ofTree (m.2.merged stringOf) = ofTree m.2
  | [] => by simp
  | (_, t) :: members => List.forall_mem_cons.mpr ⟨ofTree_merged t, ofMembers_merged members⟩

end

/-- The tree that `JSON.parse` reads. `none` is a `SyntaxError`. -/
def readJson (text : JsStr) : Option JsonText.Tree :=
  (JsonText.read (text.map Fin.val)).filter JsonText.Tree.standard

def jsonParse (text : JsStr) : Option JsValue := (readJson text).map ofTree

end VaidSuite.TypeScript
