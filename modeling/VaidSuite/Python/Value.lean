import Mathlib.Algebra.Order.Ring.Int
import VaidSuite.Json
import VaidSuite.Lib.InsertionMap

/-! The Python values that a parsed JSON document is made of, and the built-in
operations on them. An operation that can raise returns an `Except`. -/
namespace VaidSuite.Python

/-- A character of a `str`: a code point, lone surrogates included. -/
abbrev CodePoint := Fin 0x110000

instance neZero_codePoints : NeZero 0x110000 := ⟨by decide⟩

abbrev PyStr := List CodePoint

def CodePoint.ofChar (c : Char) : CodePoint := Fin.ofNat 0x110000 c.toNat

/-- The scalar value; a surrogate has none. -/
def CodePoint.toChar? (c : CodePoint) : Option Char :=
  if h : c.val.isValidChar then some (Char.ofNatAux c.val h) else none

/-- The string that a literal of the source denotes. -/
def py (s : String) : PyStr := s.toList.map CodePoint.ofChar

/-- The exceptions that the modelled code can meet. `UnicodeEncodeError` and the
errors of a canonicalization are `ValueError`s. -/
inductive PyException where
  | typeError
  | valueError
  | keyError
  | indexError
  | overflowError
  | memoryError
  | invalidSignature
  | malformedDocument (message : PyStr)
  | trustedIssuersConfig (message : PyStr)
  | chainFormat (message : PyStr)
  deriving DecidableEq

abbrev Raises (α : Type) := Except PyException α

/-- `try: body`, `except caught: ...`. `none` sends control to the handler. -/
def excepting {α : Type} (caught : List PyException) (body : Raises α) : Raises (Option α) :=
  match body with
  | .ok a => .ok (some a)
  | .error e => if e ∈ caught then .ok none else .error e

/-- `None` is `null`. -/
abbrev PyValue := Json PyStr

/-- A `dict` with string keys, in insertion order. -/
abbrev Dict := List (PyStr × PyValue)

/-- `d.get(key)`: `None` for an absent key. -/
def Dict.get (d : Dict) (key : String) : PyValue := (d.lookup (py key)).getD .null

/-- `d[key]`. -/
def Dict.item (d : Dict) (key : String) : Raises PyValue :=
  match d.lookup (py key) with
  | some v => .ok v
  | none => .error .keyError

/-- Does the double with these bits equal an integer? -/
def floatEqInt (bits : BitVec 64) (n : Int) : Bool :=
  let exponent : Nat := bits.toNat / 2 ^ 52 % 2048
  let fraction : Nat := bits.toNat % 2 ^ 52
  let mantissa : Nat := if exponent = 0 then fraction else fraction + 2 ^ 52
  let significand : Int := if bits.toNat < 2 ^ 63 then mantissa else -mantissa
  let scale := max exponent 1
  exponent != 2047 &&
    if 1075 ≤ scale then significand * 2 ^ (scale - 1075) == n
    else significand == n * 2 ^ (1075 - scale)

def isNaN (bits : BitVec 64) : Bool :=
  bits.toNat / 2 ^ 52 % 2048 == 2047 && bits.toNat % 2 ^ 52 != 0

def floatEq (a b : BitVec 64) : Bool :=
  !isNaN a && !isNaN b && (a == b || (floatEqInt a 0 && floatEqInt b 0))

def numberEq : JsonNumber → JsonNumber → Bool
  | .int m, .int n => m == n
  | .int m, .float b => floatEqInt b m
  | .float a, .int n => floatEqInt a n
  | .float a, .float b => floatEq a b

/-- A `bool` is an `int`, so it compares with numbers. -/
def numberEqValue (m : JsonNumber) : PyValue → Bool
  | .bool b => numberEq m (.int b.toNat)
  | .num n => numberEq m n
  | _ => false

mutual

/-- `a == b`. -/
def pyEq : PyValue → PyValue → Bool
  | .null, .null => true
  | .str s, .str t => s == t
  | .arr xs, .arr ys => pyEqItems xs ys
  | .obj ms, .obj ns => ms.length == ns.length && pyEqMembers ms ns
  | .bool b, w => numberEqValue (.int b.toNat) w
  | .num n, w => numberEqValue n w
  | _, _ => false

def pyEqItems : List PyValue → List PyValue → Bool
  | [], [] => true
  | x :: xs, y :: ys => pyEq x y && pyEqItems xs ys
  | _, _ => false

/-- Is every member a member of the other dict, with an equal value? -/
def pyEqMembers : List (PyStr × PyValue) → List (PyStr × PyValue) → Bool
  | [], _ => true
  | (k, v) :: ms, ns =>
    (match ns.lookup k with
      | some w => pyEq v w
      | none => false) && pyEqMembers ms ns

end

@[simp] theorem pyEq_str (s t : PyStr) : pyEq (.str s) (.str t) = (s == t) := by
  rw [pyEq]

def truthy : PyValue → Bool
  | .null => false
  | .bool b => b
  | .num n => !numberEq n (.int 0)
  | .str s => !s.isEmpty
  | .arr items => !items.isEmpty
  | .obj members => !members.isEmpty

/-- `iter(v)`, as the list of what it yields. -/
def iter : PyValue → Raises (List PyValue)
  | .arr items => .ok items
  | .obj members => .ok (members.map (fun m => .str m.1))
  | .str s => .ok (s.map (fun c => .str [c]))
  | .null | .bool _ | .num _ => .error .typeError

def hashable : PyValue → Bool
  | .arr _ | .obj _ => false
  | .null | .bool _ | .num _ | .str _ => true

/-- `item in container`. -/
def contains (container item : PyValue) : Raises Bool :=
  match container with
  | .arr items => .ok (items.any (pyEq item))
  | .obj members =>
    if hashable item then .ok (members.any (fun m => pyEq item (.str m.1))) else .error .typeError
  | .str s =>
    match item with
    | .str t => .ok (s.tails.any t.isPrefixOf)
    | _ => .error .typeError
  | .null | .bool _ | .num _ => .error .typeError

def toByte : PyValue → Raises UInt8
  | .num (.int n) => if 0 ≤ n ∧ n < 256 then .ok (UInt8.ofNat n.toNat) else .error .valueError
  | .bool b => .ok (UInt8.ofNat b.toNat)
  | _ => .error .typeError

def encode (s : PyStr) : Raises Bytes :=
  match s.mapM CodePoint.toChar? with
  | some chars => .ok (chars.flatMap String.utf8EncodeChar)
  | none => .error .valueError

/-- `len(s.encode("utf-8"))`, of a string that encodes. -/
def utf8Length (s : PyStr) : Nat :=
  (s.map (fun c =>
    if c.val < 0x80 then 1 else if c.val < 0x800 then 2 else if c.val < 0x10000 then 3 else 4)).sum

/-- Unicode text: no lone surrogate. -/
def Encodable (s : PyStr) : Prop := ∀ c ∈ s, c.toChar?.isSome = true

theorem encode_ok {s : PyStr} (text : Encodable s) : ∃ b, encode s = .ok b := by
  have decodes : ∃ chars, s.mapM CodePoint.toChar? = some chars := by
    induction s with
    | nil => exact ⟨[], rfl⟩
    | cons c s ih =>
      obtain ⟨char, hchar⟩ := Option.isSome_iff_exists.mp (text c List.mem_cons_self)
      obtain ⟨chars, hchars⟩ := ih (fun d hd => text d (List.mem_cons_of_mem _ hd))
      exact ⟨char :: chars, by simp [List.mapM_cons, hchar, hchars]⟩
  obtain ⟨chars, h⟩ := decodes
  exact ⟨_, by rw [encode, h]⟩

end VaidSuite.Python
