import VaidSuite.ChainAgreement
import VaidSuite.GatesAlike
import VaidSuite.Python.Standing
import VaidSuite.TypeScript.Standing

/-! Standing, from a text: the three hosts give one verdict, what they refuse included. -/
namespace VaidSuite

open JsonText (Text Tree codes respell utf16Code)
open Python (py)
open TypeScript (js)

section Document

variable [Crypto] [Chrono] [Python.Libraries] [TypeScript.Runtime]
variable (same : SameFunctions) (reads : Expiry.ReadsTimestamps)
variable {vaid : Vaid} {d : Python.Presented} {t : TypeScript.Presented} {j : JsonValue}
variable (h : HeldAlike vaid d.dict t.members j) (plain : PlainIds vaid)
variable {stamp : Rfc3339.Stamp} (whole : Expiry.IsWholeSecond vaid.expiresAtAsPresented stamp)

omit [Crypto] [Chrono] [TypeScript.Runtime] in
include h in
theorem HeldAlike.expiresWhole (whole : Expiry.IsWholeSecond vaid.expiresAtAsPresented stamp) :
    Expiry.ExpiresWhole vaid d t stamp := by
  obtain ⟨dict, members⟩ := h.field h.reads.expiresAt
  exact ⟨whole, dict, members⟩

omit [Crypto] [Chrono] [TypeScript.Runtime] in
include h in
theorem HeldAlike.evaluable :
    Python.boundaryIsEvaluable d.scopeBoundary = boundaryIsEvaluable vaid.scopeBoundary ∧
      TypeScript.boundaryIsEvaluable (.arr t.scopeBoundary) =
        .ok (boundaryIsEvaluable vaid.scopeBoundary) := by
  obtain ⟨⟨items, dictHolds, claimed⟩, items', membersHold, claimed'⟩ :=
    h.scopeBoundary (h.objects d.contract)
  have python := Json.arr.inj (d.get_scopeBoundary.symm.trans dictHolds)
  have typescript := TypeScript.JsValue.arr.inj (t.get_scopeBoundary.symm.trans membersHold)
  rw [Python.boundaryIsEvaluable_eq, TypeScript.boundaryIsEvaluable_arr, boundaryIsEvaluable_eq, python,
    typescript, claimed, claimed', Option.isSome_map, Option.isSome_map]
  exact ⟨rfl, rfl⟩

section Standing

variable (key : Bytes) (revocation : RevocationStatus) (now : Expiry.Now)

include same reads h plain whole

end Standing

end Document

mutual

theorem standard_of_value [SerdeJson] : ∀ (t : Tree) (j : JsonValue), SerdeJson.value t = some j →
    (t.respelled utf16Code).standard = true
  | .null, _, _ => rfl
  | .bool _, _, _ => rfl
  | .str _, _, _ => rfl
  | .num spelling, j, read => by
    rw [SerdeJson.value_num] at read
    obtain ⟨n, number, -⟩ := Option.map_eq_some_iff.mp read
    show (!JsonText.nonFinite.contains spelling) = true
    rw [Bool.not_eq_true']
    by_contra word
    rw [Bool.not_eq_false] at word
    rw [SerdeJson.number, if_pos word] at number
    cases number
  | .arr items, j, read => by
    rw [SerdeJson.value_arr] at read
    obtain ⟨js, values, -⟩ := Option.map_eq_some_iff.mp read
    exact standard_of_values items js values
  | .obj members, j, read => by
    rw [SerdeJson.value_obj] at read
    obtain ⟨entries, values, -⟩ := Option.map_eq_some_iff.mp read
    exact standard_of_entries members entries values

theorem standard_of_values [SerdeJson] : ∀ (items : List Tree) (js : List JsonValue),
    SerdeJson.values items = some js →
      JsonText.standardItems (JsonText.respelledItems utf16Code items) = true
  | [], _, _ => rfl
  | t :: items, js, read => by
    rw [SerdeJson.values] at read
    obtain ⟨j, here, read⟩ := Option.bind_eq_some_iff.mp read
    obtain ⟨rest, there, -⟩ := Option.bind_eq_some_iff.mp read
    rw [JsonText.respelledItems, JsonText.standardItems, standard_of_value t j here,
      standard_of_values items rest there]
    rfl

theorem standard_of_entries [SerdeJson] : ∀ (members : List (Text × Tree)) (entries : List (String × JsonValue)),
    SerdeJson.entries members = some entries →
      JsonText.standardMembers (JsonText.respelledMembers utf16Code members) = true
  | [], _, _ => rfl
  | (name, t) :: members, entries, read => by
    rw [SerdeJson.entries] at read
    obtain ⟨s, -, read⟩ := Option.bind_eq_some_iff.mp read
    obtain ⟨j, here, read⟩ := Option.bind_eq_some_iff.mp read
    obtain ⟨rest, there, -⟩ := Option.bind_eq_some_iff.mp read
    rw [JsonText.respelledMembers, JsonText.standardMembers, standard_of_value t j here,
      standard_of_entries members rest there]
    rfl

end

section Text

variable [SerdeJson] [Python.Libraries]

/-- Rust reads this value from the tree, and nothing in it is read in more ways than one: no name
repeats, no number is other than a byte, and a text given as the expiry is a whole second in UTC. -/
structure ReadPlainly (tree : Tree) (j : JsonValue) : Prop where
  unrepeated : tree.repeats Python.stringOf = false
  shallow : SerdeJson.depth tree < SerdeJson.recursionLimit
  short : tree.numbers.all Python.withinDigits = true
  value : SerdeJson.value tree = some j
  plain : PlainValue j
  expiry : ∀ s, j.val.get "expires_at" = some (.str s) → ∃ stamp, Expiry.IsWholeSecond s stamp

/-- A text that is not JSON, one in which an object spells a name twice, or one that is read
plainly. -/
def PlainText (text : String) : Prop :=
  ∀ tree, JsonText.read (codes text) = some tree → tree.repeats id = true ∨ ∃ j, ReadPlainly tree j

variable {text : String} {tree : Tree}

omit [SerdeJson] in
theorem gate_python (read : JsonText.read (codes text) = some tree) :
    Python.parseVaidDocument (py text) =
      if tree.numbers.all Python.withinDigits && !tree.repeats Python.stringOf then
        match Python.ofTree tree with
        | .obj document => if Python.satisfiesContract document then some document else none
        | _ => none
      else none := by
  rw [Python.parseVaidDocument, Python.readJson, points_py, read, Option.filter_some]
  cases tree.numbers.all Python.withinDigits with
  | false => rfl
  | true =>
    rw [if_pos rfl, Option.filter_some, Bool.true_and]
    cases tree.repeats Python.stringOf with
    | true => rfl
    | false =>
      rw [Bool.not_false, if_pos rfl, if_pos rfl, Option.map_some]
      cases Python.ofTree tree <;> rfl

section Verdict

variable [Crypto] [Chrono] [TypeScript.Runtime]
variable (same : SameFunctions) (reads : Expiry.ReadsTimestamps)
variable (key : Bytes) (revocation : RevocationStatus) (expected : ExpectedCaller String)
  (now : Expiry.Now)

include same reads

end Verdict

theorem CommonDocument.plainText (d : CommonDocument) : PlainText d.text := by
  intro tree read
  obtain ⟨_, j, read', unrepeated, shallow, value, held⟩ := d.spells
  rw [read] at read'
  cases read'
  have readings := held.reads
  have short : tree.numbers.all Python.withinDigits = true := by
    have parsed := d.python
    rw [gate_python read] at parsed
    split_ifs at parsed with kept
    exact (Bool.and_eq_true_iff.mp kept).1
  have uuid {k : String} {p : PresentedUuid}
      (read : Deserialize.field j k Deserialize.presentedUuid = some p) :
      j.val.get k = some (.str p.asPresented) :=
    Deserialize.get_of_field_always Deserialize.presentedUuid_reproduces read
  refine .inr ⟨j, unrepeated, shallow, short, value, ⟨?_, ?_, ?_, ?_⟩, ?_⟩
  · exact bytesOnly_of_vaid held.rust d.known d.prefixes
  · intro null
    by_cases absent : j.member? "sig_version" = none
    · rw [JsonValue.member?_eq_none absent] at null
      cases null
    · rw [Deserialize.get_of_sigVersion readings absent] at null
      cases null
  · intro k named s found
    simp only [List.mem_cons, List.not_mem_nil, or_false] at named
    rcases named with rfl | rfl | rfl
    · rw [uuid readings.vaidId] at found
      cases found
      exact d.ids.vaidId ▸ .hyphenated _
    · rw [uuid readings.agentId] at found
      cases found
      exact d.ids.agentId ▸ .hyphenated _
    · obtain ⟨parent, given⟩ := d.given
      rw [Deserialize.get_of_parent readings given] at found
      cases parent with
      | none => cases found
      | some p =>
        cases found
        exact d.ids.parent p given ▸ .hyphenated _
  · exact held.objects (Python.of_parseVaidDocument d.python).1
  · intro s found
    rw [Deserialize.get_of_field_always Deserialize.string_reproduces readings.expiresAt] at found
    cases found
    exact d.expiry

end Text

section Examples

attribute [local instance] chainCrypto chainLibraries chainRuntime Expiry.chrono SerdeJson.integersOnly

end Examples

end VaidSuite
