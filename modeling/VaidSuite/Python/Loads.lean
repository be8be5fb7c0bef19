import VaidSuite.Lib.Binary64
import VaidSuite.Lib.JsonText
import VaidSuite.Python.Value

/-! `json.loads`: what a JSON text is read as. -/
namespace VaidSuite.Python

def stringOf (spelling : JsonText.Text) : PyStr :=
  (JsonText.points spelling).map (Fin.ofNat 0x110000)

/-- A number without a fraction or an exponent is an `int`. -/
def isInt (spelling : JsonText.Text) : Bool :=
  spelling.all (fun c => JsonText.isDigit c || c == 0x2d)

def infinity : Binary64.Bits := BitVec.ofNat 64 (2047 * 2 ^ 52)
def nan : Binary64.Bits := BitVec.ofNat 64 (2047 * 2 ^ 52 + 2 ^ 51)

def numberOf (spelling : JsonText.Text) : JsonNumber :=
  if spelling = JsonText.codes "NaN" then .float nan
  else if spelling = JsonText.codes "Infinity" then .float infinity
  else if spelling = JsonText.codes "-Infinity" then .float (Binary64.neg infinity)
  else
    let d := JsonText.decimal spelling
    if isInt spelling then .int (if d.negative then -d.digits else d.digits)
    else .float (Binary64.ofDecimal d.negative d.digits d.exponent)

/-- The longest integer that `int` reads, in digits. -/
def maxStrDigits : Nat := 4300

def withinDigits (spelling : JsonText.Text) : Bool :=
  !isInt spelling || decide ((spelling.filter JsonText.isDigit).length ≤ maxStrDigits)

mutual

/-- The value of a tree. The last of several members of one name is kept. -/
def ofTree : JsonText.Tree → PyValue
  | .null => .null
  | .bool b => .bool b
  | .num spelling => .num (numberOf spelling)
  | .str spelling => .str (stringOf spelling)
  | .arr items => .arr (ofItems items)
  | .obj members => .obj (ofMembers [] members)

def ofItems : List JsonText.Tree → List PyValue
  | [] => []
  | t :: items => ofTree t :: ofItems items

def ofMembers (built : Dict) : List (JsonText.Text × JsonText.Tree) → Dict
  | [] => built
  | (name, t) :: members => ofMembers (InsertionMap.set (stringOf name) (ofTree t) built) members

end

theorem ofItems_eq (items : List JsonText.Tree) : ofItems items = items.map ofTree := by
  induction items with
  | nil => rw [ofItems, List.map_nil]
  | cons t items ih => rw [ofItems, ih, List.map_cons]

theorem ofMembers_eq (members : List (JsonText.Text × JsonText.Tree)) : ofMembers [] members =
    (InsertionMap.ofList (fun m => stringOf m.1) members).map
      (Prod.map id (fun m => ofTree m.2)) := by
  have folds : ∀ built, ofMembers built members = members.foldl
      (fun built m => InsertionMap.set (stringOf m.1) (ofTree m.2) built) built := by
    induction members with
    | nil => intro built; rw [ofMembers, List.foldl_nil]
    | cons m members ih =>
      intro built
      obtain ⟨name, t⟩ := m
      rw [ofMembers, ih, List.foldl_cons]
  rw [folds, InsertionMap.foldl_set_map (fun m : JsonText.Text × JsonText.Tree => stringOf m.1)]

mutual

theorem ofTree_merged : ∀ t : JsonText.Tree, ofTree (t.merged stringOf) = ofTree t
  | .null | .bool _ | .num _ | .str _ => by simp [JsonText.Tree.merged]
  | .arr items => by
    rw [JsonText.Tree.merged, ofTree, ofTree, ofItems_eq, ofItems_eq, JsonText.mergedItems_eq,
      List.map_map]
    exact congrArg Json.arr (List.map_congr_left (ofItems_merged items))
  | .obj members => by
    rw [JsonText.Tree.merged, ofTree, ofTree, ofMembers_eq, ofMembers_eq,
      JsonText.ofList_merged stringOf (ofMembers_merged members)]

theorem ofItems_merged : ∀ items : List JsonText.Tree,
    ∀ t ∈ items, ofTree (t.merged stringOf) = ofTree t
  | [] => by simp
  | t :: items => List.forall_mem_cons.mpr ⟨ofTree_merged t, ofItems_merged items⟩

theorem ofMembers_merged : ∀ members : List (JsonText.Text × JsonText.Tree),
    ∀ m ∈ members, ofTree (m.2.merged stringOf) = ofTree m.2
  | [] => by simp
  | (_, t) :: members => List.forall_mem_cons.mpr ⟨ofTree_merged t, ofMembers_merged members⟩

end

/-- The tree that `json.loads` reads. `none` is a `JSONDecodeError`, or the `ValueError` of
an integer that is too long. -/
def readJson (text : PyStr) : Option JsonText.Tree :=
  (JsonText.read (text.map Fin.val)).filter (fun t => t.numbers.all withinDigits)

def jsonLoads (text : PyStr) : Option PyValue := (readJson text).map ofTree

end VaidSuite.Python
