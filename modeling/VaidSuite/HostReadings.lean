import VaidSuite.Deserialize
import VaidSuite.HostValues
import VaidSuite.Lib.JsonUtf16
import VaidSuite.Python.FromJson
import VaidSuite.TypeScript.FromJson

/-! One text read by the three hosts. Where `serde_json` reads a value whose numbers are bytes,
and no name repeats, the other two read what stands for that value. -/
namespace VaidSuite

open JsonText (Text Tree NumberTaken Spelled TakenItems TakenMembers respell utf16Code points)
open Python (py)
open TypeScript (js)

theorem py_points {spelling : Text} {s : String} (read : SerdeJson.string spelling = some s) :
    Python.stringOf spelling = py s := by
  unfold SerdeJson.string at read
  dsimp only at read
  split_ifs at read with valid
  cases read
  rw [py, String.toList_ofList, Python.stringOf, List.map_map]
  refine List.map_congr_left (fun c member => ?_)
  have point := of_decide_eq_true (List.all_eq_true.mp valid c member)
  show _ = Fin.ofNat 0x110000 (Char.ofNat c).toNat
  rw [TypeScript.toNat_ofNat point]

theorem units_utf16Code {c : Nat} (valid : c.isValidChar) :
    TypeScript.unitsOf (utf16Code c) = TypeScript.utf16 (Char.ofNat c) := by
  rw [TypeScript.utf16, TypeScript.toNat_ofNat valid, utf16Code]
  split_ifs <;> rfl

theorem js_points {spelling : Text} (spelled : Spelled spelling) {s : String}
    (read : SerdeJson.string spelling = some s) :
    TypeScript.stringOf (respell utf16Code spelling) = js s := by
  unfold SerdeJson.string at read
  dsimp only at read
  split_ifs at read with valid
  cases read
  rw [TypeScript.stringOf, JsonText.unescape_utf16 spelled, js, String.toList_ofList, List.flatMap_map,
    TypeScript.unitsOf, respell, List.map_flatMap]
  exact List.flatMap_congr (fun c member =>
    units_utf16Code (of_decide_eq_true (List.all_eq_true.mp valid c member)))

theorem of_number_int [SerdeJson] {spelling : Text} {n : Int}
    (read : SerdeJson.number spelling = some (.int n)) (positive : 0 ≤ n) :
    JsonText.nonFinite.contains spelling = false ∧ SerdeJson.isInteger spelling = true ∧
      (JsonText.decimal spelling).negative = false ∧ n = (JsonText.decimal spelling).digits := by
  unfold SerdeJson.number at read
  dsimp only at read
  split_ifs at read with word integer negative
  · cases read
    exact ⟨by simpa using word, integer.1, integer.2.1, rfl⟩
  · cases read
    omega
  · obtain ⟨_, -, same⟩ := Option.map_eq_some_iff.mp read
    cases same

theorem python_number [SerdeJson] {spelling : Text} {n : Int}
    (read : SerdeJson.number spelling = some (.int n)) (positive : 0 ≤ n) :
    Python.numberOf spelling = .int n := by
  obtain ⟨finite, integer, unsigned, rfl⟩ := of_number_int read positive
  have words : ∀ w ∈ JsonText.nonFinite, spelling ≠ w := by
    rintro w member rfl
    rw [List.contains_iff_mem.mpr member] at finite
    cases finite
  have int : Python.isInt spelling = true := integer
  rw [Python.numberOf, if_neg (words _ (by decide)), if_neg (words _ (by decide)),
    if_neg (words _ (by decide))]
  simp only [int, unsigned, if_true, Bool.false_eq_true, if_false]

theorem typescript_number [SerdeJson] {spelling : Text} {n : Int} (taken : NumberTaken spelling)
    (read : SerdeJson.number spelling = some (.int n)) (positive : 0 ≤ n) :
    TypeScript.numberOf spelling = Binary64.ofNat n.toNat := by
  obtain ⟨-, integer, unsigned, rfl⟩ := of_number_int read positive
  rw [TypeScript.numberOf, unsigned, JsonText.decimal_of_integer taken integer unsigned]
  simp [Binary64.ofDecimal, Binary64.ofNat]

mutual

def Json.BytesOnly : Json String → Prop
  | .num (.int n) => 0 ≤ n ∧ n < 256
  | .num (.float _) => False
  | .arr items => Json.BytesOnlyItems items
  | .obj members => Json.BytesOnlyMembers members
  | .null | .bool _ | .str _ => True

def Json.BytesOnlyItems : List (Json String) → Prop
  | [] => True
  | j :: items => j.BytesOnly ∧ Json.BytesOnlyItems items

def Json.BytesOnlyMembers : List (String × Json String) → Prop
  | [] => True
  | (_, j) :: members => j.BytesOnly ∧ Json.BytesOnlyMembers members

end

theorem Json.bytesOnlyItems_iff {items : List (Json String)} :
    Json.BytesOnlyItems items ↔ ∀ j ∈ items, j.BytesOnly := by
  induction items with
  | nil => simp [Json.BytesOnlyItems]
  | cons j items ih => simp [Json.BytesOnlyItems, ih]

theorem Json.bytesOnlyMembers_iff {members : List (String × Json String)} :
    Json.BytesOnlyMembers members ↔ ∀ m ∈ members, m.2.BytesOnly := by
  induction members with
  | nil => simp [Json.BytesOnlyMembers]
  | cons m members ih => simp [Json.BytesOnlyMembers, ih]

def BothRead (t : Tree) (j : Json String) : Prop :=
  Python.jsonOf (Python.ofTree t) = some j ∧
    TypeScript.jsonOf (TypeScript.ofTree (t.respelled utf16Code)) = some j

theorem bothRead_num [SerdeJson] {spelling : Text} {n : JsonNumber} (taken : NumberTaken spelling)
    (read : SerdeJson.number spelling = some n) (byte : (Json.num n : Json String).BytesOnly) :
    BothRead (.num spelling) (.num n) := by
  cases n with
  | float bits => exact byte.elim
  | int n =>
    obtain ⟨m, rfl⟩ := Int.eq_ofNat_of_zero_le byte.1
    have small : m < 256 := by exact_mod_cast byte.2
    obtain ⟨-, -, -, toByte⟩ := Binary64.ofNat_byte m small
    refine ⟨?_, ?_⟩
    · rw [Python.ofTree, python_number read byte.1, Python.jsonOf]
      exact if_pos byte
    · show TypeScript.jsonOf (TypeScript.ofTree (.num spelling)) = _
      rw [TypeScript.ofTree, typescript_number taken read byte.1, TypeScript.jsonOf, Int.toNat_natCast,
        toByte, UInt8.toNat_ofNat_of_lt' small]
      exact if_pos rfl

theorem bothRead_arr {items : List Tree} {js : List JsonValue}
    (each : List.Forall₂ (fun t j => BothRead t j.val) items js) :
    BothRead (.arr items) (JsonValue.array js).val := by
  refine ⟨?_, ?_⟩
  · rw [Python.ofTree, Python.ofItems_eq]
    refine Python.jsonOf_arr_iff.mpr ⟨_, ?_, rfl⟩
    rw [List.forall₂_map_left_iff, List.forall₂_map_right_iff]
    exact each.imp (fun _ _ both => both.1)
  · rw [Tree.respelled, TypeScript.ofTree, TypeScript.ofItems_eq, JsonText.respelledItems_eq,
      List.map_map]
    refine TypeScript.jsonOf_arr_iff.mpr ⟨_, ?_, rfl⟩
    rw [List.forall₂_map_left_iff, List.forall₂_map_right_iff]
    exact each.imp (fun _ _ both => both.2)

def MemberRead (m : Text × Tree) (e : String × JsonValue) : Prop :=
  Spelled m.1 ∧ SerdeJson.string m.1 = some e.1 ∧ BothRead m.2 e.2.val

theorem bothRead_obj {members : List (Text × Tree)} {entries : List (String × JsonValue)}
    (each : List.Forall₂ MemberRead members entries) (distinct : (entries.map Prod.fst).Nodup) :
    BothRead (.obj members) (JsonValue.object entries).val := by
  have keys : ((entries.map (Prod.map id JsonValue.val)).map Prod.fst).Nodup := by
    rwa [List.map_map]
  refine ⟨?_, ?_⟩
  · have named : members.map (fun m => Python.stringOf m.1) = (entries.map Prod.fst).map py := by
      clear distinct keys
      induction each with
      | nil => rfl
      | cons here _ ih => rw [List.map_cons, List.map_cons, List.map_cons, py_points here.2.1, ih]
    have fresh : (members.map (fun m => Python.stringOf m.1)).Nodup :=
      named ▸ distinct.map (fun _ _ same => py_inj.mp same)
    rw [Python.ofTree, Python.ofMembers_eq, InsertionMap.ofList_of_nodup fresh, List.map_map]
    refine Python.jsonOf_obj_iff.mpr ⟨_, ?_, keys, rfl⟩
    rw [Holds, List.forall₂_map_left_iff, List.forall₂_map_right_iff]
    exact each.imp (fun _ _ read => ⟨py_points read.2.1, read.2.2.1⟩)
  · have named : (members.map (Prod.map (respell utf16Code) (Tree.respelled utf16Code))).map
        (fun m => TypeScript.stringOf m.1) = (entries.map Prod.fst).map js := by
      clear distinct keys
      rw [List.map_map]
      induction each with
      | nil => rfl
      | cons here _ ih =>
        rw [List.map_cons, List.map_cons, List.map_cons, ih]
        exact congrArg (· :: _) (js_points here.1 here.2.1)
    have fresh : ((members.map (Prod.map (respell utf16Code) (Tree.respelled utf16Code))).map
        (fun m => TypeScript.stringOf m.1)).Nodup :=
      named ▸ distinct.map (fun _ _ same => js_inj.mp same)
    rw [Tree.respelled, JsonText.respelledMembers_eq, TypeScript.ofTree, TypeScript.ofMembers_eq,
      InsertionMap.ofList_of_nodup fresh, List.map_map, List.map_map]
    refine TypeScript.jsonOf_obj_iff.mpr ⟨_, ?_, keys, rfl⟩
    rw [Holds, List.forall₂_map_left_iff, List.forall₂_map_right_iff]
    exact each.imp (fun _ _ read => ⟨js_points read.1 read.2.1, read.2.2.2⟩)

theorem nodup_of_entries [SerdeJson] {members : List (Text × Tree)}
    {entries : List (String × JsonValue)} (read : SerdeJson.entries members = some entries)
    (distinct : (members.map (fun m => Python.stringOf m.1)).Nodup) :
    (entries.map Prod.fst).Nodup := by
  have named : members.map (fun m => Python.stringOf m.1) = (entries.map Prod.fst).map py := by
    clear distinct
    induction members generalizing entries with
    | nil =>
      rw [SerdeJson.entries] at read
      cases read
      rfl
    | cons m members ih =>
      obtain ⟨name, t⟩ := m
      rw [SerdeJson.entries] at read
      obtain ⟨s, spelled, read⟩ := Option.bind_eq_some_iff.mp read
      obtain ⟨j, _, read⟩ := Option.bind_eq_some_iff.mp read
      obtain ⟨rest, there, made⟩ := Option.bind_eq_some_iff.mp read
      cases made
      rw [List.map_cons, List.map_cons, List.map_cons, py_points spelled, ih there]
  rw [named] at distinct
  exact distinct.of_map

theorem bytesOnly_of_object {entries : List (String × JsonValue)}
    (distinct : (entries.map Prod.fst).Nodup) (bytes : (JsonValue.object entries).val.BytesOnly) :
    ∀ e ∈ entries, e.2.val.BytesOnly := by
  have keys : ((entries.map (Prod.map id JsonValue.val)).map Prod.fst).Nodup := by
    rwa [List.map_map]
  intro e member
  have found := SortedMap.lookup_of_mem keys (k := e.1) (v := e.2.val)
    (List.mem_map_of_mem (f := Prod.map id JsonValue.val) member)
  rw [← SortedMap.lookup_ofList _ keys] at found
  exact Json.bytesOnlyMembers_iff.mp bytes _ (SortedMap.mem_of_lookup found)

/-! What `SerdeJson.value` is on each kind of tree. -/

section Kinds

variable [SerdeJson]

theorem SerdeJson.value_null : value .null = some ⟨.null, rfl⟩ := rfl

theorem SerdeJson.value_bool (b : Bool) : value (.bool b) = some ⟨.bool b, rfl⟩ := rfl

theorem SerdeJson.value_num (spelling : Text) :
    value (.num spelling) = (number spelling).map (fun n => ⟨.num n, rfl⟩) := rfl

theorem SerdeJson.value_str (spelling : Text) :
    value (.str spelling) = (string spelling).map (fun s => ⟨.str s, rfl⟩) := rfl

theorem SerdeJson.value_arr (items : List Tree) : value (.arr items) = (values items).map .array := rfl

theorem SerdeJson.value_obj (members : List (Text × Tree)) :
    value (.obj members) = (entries members).map .object := rfl

end Kinds

mutual

theorem bothRead_of_value [SerdeJson] : ∀ (t : Tree) (j : JsonValue), t.Taken →
    t.repeats Python.stringOf = false → SerdeJson.value t = some j → j.val.BytesOnly →
      BothRead t j.val
  | .null, j, _, _, read, _ => by
    rw [SerdeJson.value_null] at read
    cases read
    exact ⟨rfl, rfl⟩
  | .bool b, j, _, _, read, _ => by
    rw [SerdeJson.value_bool] at read
    cases read
    exact ⟨rfl, rfl⟩
  | .num spelling, j, taken, _, read, bytes => by
    rw [SerdeJson.value_num] at read
    obtain ⟨n, number, rfl⟩ := Option.map_eq_some_iff.mp read
    exact bothRead_num taken number bytes
  | .str spelling, j, taken, _, read, _ => by
    rw [SerdeJson.value_str] at read
    obtain ⟨s, string, rfl⟩ := Option.map_eq_some_iff.mp read
    refine ⟨?_, ?_⟩
    · rw [Python.ofTree, py_points string, Python.jsonOf, Python.textOf_py, Option.map_some]
    · rw [Tree.respelled, TypeScript.ofTree, js_points taken string, TypeScript.jsonOf,
        TypeScript.textOf_js, Option.map_some]
  | .arr items, j, taken, unrepeated, read, bytes => by
    rw [SerdeJson.value_arr] at read
    obtain ⟨js, values, rfl⟩ := Option.map_eq_some_iff.mp read
    rw [Tree.repeats] at unrepeated
    exact bothRead_arr (bothRead_of_values items js taken unrepeated values (fun j member =>
      Json.bytesOnlyItems_iff.mp bytes j.val (List.mem_map_of_mem member)))
  | .obj members, j, taken, unrepeated, read, bytes => by
    rw [SerdeJson.value_obj] at read
    obtain ⟨entries, values, rfl⟩ := Option.map_eq_some_iff.mp read
    rw [Tree.repeats, Bool.or_eq_false_iff] at unrepeated
    have distinct := nodup_of_entries values (by simpa using unrepeated.1)
    exact bothRead_obj (memberRead_of_entries members entries taken unrepeated.2 values
      (bytesOnly_of_object distinct bytes)) distinct

theorem bothRead_of_values [SerdeJson] : ∀ (items : List Tree) (js : List JsonValue),
    TakenItems items → JsonText.repeatsInItems Python.stringOf items = false →
      SerdeJson.values items = some js → (∀ j ∈ js, j.val.BytesOnly) →
        List.Forall₂ (fun t j => BothRead t j.val) items js
  | [], js, _, _, read, _ => by
    rw [SerdeJson.values] at read
    cases read
    exact .nil
  | t :: items, js, taken, unrepeated, read, bytes => by
    rw [SerdeJson.values] at read
    obtain ⟨j, here, read⟩ := Option.bind_eq_some_iff.mp read
    obtain ⟨rest, there, made⟩ := Option.bind_eq_some_iff.mp read
    cases made
    rw [JsonText.repeatsInItems, Bool.or_eq_false_iff] at unrepeated
    rw [List.forall_mem_cons] at bytes
    exact .cons (bothRead_of_value t j taken.1 unrepeated.1 here bytes.1)
      (bothRead_of_values items rest taken.2 unrepeated.2 there bytes.2)

theorem memberRead_of_entries [SerdeJson] : ∀ (members : List (Text × Tree))
    (entries : List (String × JsonValue)), TakenMembers members →
      JsonText.repeatsInMembers Python.stringOf members = false →
        SerdeJson.entries members = some entries → (∀ e ∈ entries, e.2.val.BytesOnly) →
          List.Forall₂ MemberRead members entries
  | [], es, _, _, read, _ => by
    rw [SerdeJson.entries] at read
    cases read
    exact .nil
  | (name, t) :: members, es, taken, unrepeated, read, bytes => by
    rw [SerdeJson.entries] at read
    obtain ⟨s, named, read⟩ := Option.bind_eq_some_iff.mp read
    obtain ⟨j, here, read⟩ := Option.bind_eq_some_iff.mp read
    obtain ⟨rest, there, made⟩ := Option.bind_eq_some_iff.mp read
    cases made
    rw [JsonText.repeatsInMembers, Bool.or_eq_false_iff] at unrepeated
    rw [List.forall_mem_cons] at bytes
    exact .cons ⟨taken.1, named, bothRead_of_value t j taken.2.1 unrepeated.1 here bytes.1⟩
      (memberRead_of_entries members rest taken.2.2 unrepeated.2 there bytes.2)

end

section Bytes

open Deserialize

theorem bytesOnly_of_string {j : JsonValue} {s : String} (read : string j = some s) :
    j.val.BytesOnly := by
  rw [← (string_reproduces j s read).mpr trivial]
  exact trivial

theorem bytesOnly_of_uuid {j : JsonValue} {p : PresentedUuid} (read : presentedUuid j = some p) :
    j.val.BytesOnly := by
  rw [← (presentedUuid_reproduces j p read).mpr trivial]
  exact trivial

theorem bytesOnly_of_u8 {j : JsonValue} {b : UInt8} (read : u8 j = some b) : j.val.BytesOnly := by
  rw [← (u8_reproduces j b read).mpr trivial]
  have byte := b.toNat_lt
  exact ⟨Int.natCast_nonneg _, by exact_mod_cast byte⟩

theorem bytesOnly_of_vec {α : Type} {item : JsonValue → Option α} {j : JsonValue} {xs : List α}
    (read : vec item j = some xs)
    (each : ∀ i x, item i = some x → x ∈ xs → i.val.BytesOnly) : j.val.BytesOnly := by
  obtain ⟨items, array, parsed⟩ := Option.bind_eq_some_iff.mp read
  rw [JsonValue.items?_eq_some array]
  refine Json.bytesOnlyItems_iff.mpr (fun v member => ?_)
  obtain ⟨i, listed, rfl⟩ := List.mem_map.mp member
  obtain ⟨x, result, same⟩ : ∃ x ∈ xs, item i = some x := by
    have readings := Raising.map_of_mapM parsed
    have one : item i ∈ xs.map some := readings ▸ List.mem_map_of_mem listed
    obtain ⟨x, result, same⟩ := List.mem_map.mp one
    exact ⟨x, result, same.symm⟩
  exact each i x same result

theorem get_of_mem {j : JsonValue} {members : List (String × Json String)}
    (isObject : j.val = .obj members) {m : String × Json String} (member : m ∈ members) :
    j.val.get m.1 = some m.2 := by
  have ordered := j.property
  rw [isObject, Json.ordered, Bool.and_eq_true, decide_eq_true_eq] at ordered
  rw [isObject]
  exact SortedMap.lookup_of_mem ordered.1.nodup_keys member

theorem bytesOnly_of_prefix {j : JsonValue} {e : ScopeBoundaryEntry}
    (read : scopeBoundaryEntry j = some e) (kind : e.kind = scopeKindPrefix) : j.val.BytesOnly := by
  obtain ⟨⟨kind', value⟩, raw, built⟩ := Option.bind_eq_some_iff.mp read
  have fields : e.kind = kind' ∧ e.value = value := by
    simp only [ScopeBoundaryEntry.new] at built
    split at built
    · cases built; exact ⟨rfl, rfl⟩
    · cases built
  have text : value.val.BytesOnly := by
    have valid := e.validated
    rw [kind, fields.2] at valid
    cases held : value.val with
    | str s => exact trivial
    | _ =>
      rw [held] at valid
      cases valid
  unfold rawEntry at raw
  split at raw
  · rename_i items
    obtain ⟨s, isText, same⟩ := Option.map_eq_some_iff.mp raw
    cases same
    rw [JsonValue.items?_eq_some items]
    exact ⟨bytesOnly_of_string isText, text, trivial⟩
  · cases raw
  · simp only [Option.bind_eq_bind, Option.bind_eq_some_iff] at raw
    obtain ⟨members, isObject, raw⟩ := raw
    split_ifs at raw with only
    simp only [Option.bind_eq_some_iff, Option.some.injEq] at raw
    obtain ⟨_, ⟨k, hkind, isText⟩, _, hvalue, same⟩ := raw
    cases same
    have obj := JsonValue.members?_eq_some isObject
    rw [obj]
    refine Json.bytesOnlyMembers_iff.mpr (fun m member => ?_)
    have found := get_of_mem obj member
    have named := List.all_eq_true.mp only m member
    rcases Bool.or_eq_true_iff.mp named with isKind | isValue
    · rw [eq_of_beq isKind, JsonValue.member?_eq_some hkind] at found
      exact Option.some.inj found ▸ bytesOnly_of_string isText
    · rw [eq_of_beq isValue, JsonValue.member?_eq_some hvalue] at found
      exact Option.some.inj found ▸ text

theorem bytesOnly_of_field {α : Type} {de : JsonValue → Option α} {j : JsonValue} {name : String}
    {a : α} (h : field j name de = some a) (good : ∀ m, de m = some a → m.val.BytesOnly)
    {x : Json String} (found : j.val.get name = some x) : x.BytesOnly := by
  obtain ⟨m, member, read⟩ := Option.bind_eq_some_iff.mp h
  rw [JsonValue.member?_eq_some member] at found
  exact Option.some.inj found ▸ good m read

theorem bytesOnly_of_fieldOr {α : Type} {de : JsonValue → Option α} {absent : α} {j : JsonValue}
    {name : String} {a : α} (h : fieldOr j name absent de = some a)
    (good : ∀ m, de m = some a → m.val.BytesOnly) {x : Json String}
    (found : j.val.get name = some x) : x.BytesOnly := by
  unfold fieldOr at h
  split at h
  · rename_i missing
    rw [JsonValue.member?_eq_none missing] at found
    cases found
  · rename_i m member
    rw [JsonValue.member?_eq_some member] at found
    exact Option.some.inj found ▸ good m h

theorem bytesOnly_of_vaid {j : JsonValue} {v : Vaid} (accepted : vaid j = some v)
    (known : v.unknownFields.members = [])
    (prefixes : ∀ e ∈ v.scopeBoundary, e.kind = scopeKindPrefix) : j.val.BytesOnly := by
  have reads := reads_of_vaid accepted
  have parent : ∀ m, (option presentedUuid m).map some = some v.presentedParent → m.val.BytesOnly := by
    intro m read
    obtain ⟨p, read, -⟩ := Option.map_eq_some_iff.mp read
    rw [← option_reproduces presentedUuid_reproduces read trivial]
    cases p <;> exact trivial
  have named : ∀ name ∈ vaidMemberNames, ∀ x, j.val.get name = some x → x.BytesOnly := by
    simp only [vaidMemberNames, List.forall_mem_cons, List.not_mem_nil, false_implies, implies_true,
      and_true]
    exact ⟨fun x => bytesOnly_of_fieldOr reads.sigVersion (fun _ => bytesOnly_of_u8),
      fun x => bytesOnly_of_field reads.vaidId (fun _ => bytesOnly_of_uuid),
      fun x => bytesOnly_of_field reads.agentId (fun _ => bytesOnly_of_uuid),
      fun x => bytesOnly_of_field reads.agentClass (fun _ => bytesOnly_of_string),
      fun x => bytesOnly_of_field reads.version (fun _ => bytesOnly_of_string),
      fun x => bytesOnly_of_field reads.tenantId (fun _ => bytesOnly_of_string),
      fun x => bytesOnly_of_field reads.issuedAt (fun _ => bytesOnly_of_string),
      fun x => bytesOnly_of_field reads.expiresAt (fun _ => bytesOnly_of_string),
      fun x => bytesOnly_of_field reads.publicKeyDer (fun _ read =>
        bytesOnly_of_vec read (fun _ _ item _ => bytesOnly_of_u8 item)),
      fun x => bytesOnly_of_field reads.kernelSignature (fun _ read =>
        bytesOnly_of_vec read (fun _ _ item _ => bytesOnly_of_u8 item)),
      fun x => bytesOnly_of_fieldOr reads.parent parent,
      fun x => bytesOnly_of_field reads.scope (fun _ read =>
        bytesOnly_of_vec read (fun _ e item member => bytesOnly_of_prefix item (prefixes e member))),
      fun x => bytesOnly_of_field reads.lineageHash (fun _ => bytesOnly_of_string),
      fun x => bytesOnly_of_field reads.capabilitySet (fun _ read =>
        bytesOnly_of_vec read (fun _ _ item _ => bytesOnly_of_string item)),
      fun x => bytesOnly_of_field reads.trustDomain (fun _ => bytesOnly_of_string),
      fun x => bytesOnly_of_field reads.kernelKeyThumbprint (fun _ => bytesOnly_of_string)⟩
  have unknown := reads.unknown
  cases isObject : j.val with
  | obj members =>
    refine Json.bytesOnlyMembers_iff.mpr (fun m member => ?_)
    have found := get_of_mem isObject member
    by_cases name : m.1 ∈ vaidMemberNames
    · exact named m.1 name m.2 found
    · have listed := get_of_unknown unknown name
      rw [known, found] at listed
      cases listed
  | _ =>
    obtain ⟨val, ordered⟩ := j
    cases isObject
    cases unknown

end Bytes

end VaidSuite
