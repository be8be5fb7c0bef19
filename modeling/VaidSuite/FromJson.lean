import VaidSuite.Deserialize
import VaidSuite.DuplicateNames
import VaidSuite.Lib.JsonRespell
import VaidSuite.Verify

/-! Standing from the raw text. The scan for a repeated member name runs over the UTF-8 bytes,
and then `serde_json` reads the text and keeps the last of several members of one name. -/
namespace VaidSuite

open JsonText (Text Tree Respelling respell codes)

def utf8Code (c : Nat) : Text :=
  if c ≤ 0x7f then [c]
  else if c ≤ 0x7ff then [c / 64 % 0x20 + 0xc0, c % 0x40 + 0x80]
  else if c ≤ 0xffff then [c / 4096 % 0x10 + 0xe0, c / 64 % 0x40 + 0x80, c % 0x40 + 0x80]
  else [c / 262144 + 0xf0, c / 4096 % 0x40 + 0x80, c / 64 % 0x40 + 0x80, c % 0x40 + 0x80]

def asBytes (json : String) : Text := (utf8 json).map UInt8.toNat

theorem utf8Code_toNat (c : Char) : utf8Code c.toNat = (String.utf8EncodeChar c).map UInt8.toNat := by
  have small : ∀ n < 256, (UInt8.ofNat n).toNat = n := fun n h => UInt8.toNat_ofNat_of_lt' h
  have bound : c.toNat ≤ 0x10ffff := by
    rcases c.valid with low | high
    · exact Nat.le_trans (Nat.le_of_lt low) (by decide)
    · exact Nat.le_of_lt_succ high.2
  unfold utf8Code String.utf8EncodeChar
  simp only [Char.toNat] at bound ⊢
  split_ifs with one two three
  · rw [List.map_singleton, small _ (by omega)]
  · rw [List.map_cons, List.map_singleton, small _ (by omega), small _ (by omega)]
  · rw [List.map_cons, List.map_cons, List.map_singleton, small _ (by omega), small _ (by omega),
      small _ (by omega)]
  · have lead : c.val.toNat / 262144 % 8 = c.val.toNat / 262144 := Nat.mod_eq_of_lt (by omega)
    rw [List.map_cons, List.map_cons, List.map_cons, List.map_singleton, small _ (by omega),
      small _ (by omega), small _ (by omega), small _ (by omega), lead]

theorem asBytes_eq (json : String) : asBytes json = respell utf8Code (codes json) := by
  unfold asBytes utf8 codes respell
  rw [List.map_flatMap, List.flatMap_map]
  exact List.flatMap_congr (fun c _ => (utf8Code_toNat c).symm)

theorem utf8Code_respelling : Respelling utf8Code where
  ascii c low := by rw [utf8Code, if_pos (by omega)]
  outside c high := by
    unfold utf8Code
    split_ifs with one two three
    · omega
    · exact ⟨_, _, rfl, by omega, by simp⟩
    · exact ⟨_, _, rfl, by omega, by simp⟩
    · exact ⟨_, _, rfl, by omega, by simp⟩

theorem utf8Code_append_inj {c d : Nat} {s t : Text} (same : utf8Code c ++ s = utf8Code d ++ t) :
    c = d ∧ s = t := by
  have first : c = d := by
    unfold utf8Code at same
    split_ifs at same <;>
      simp only [List.cons_append, List.nil_append, List.cons.injEq] at same <;> omega
  subst first
  exact ⟨rfl, List.append_cancel_left same⟩

theorem respell_utf8Code_injective : Function.Injective (respell utf8Code) := by
  have nonempty : ∀ c s, respell utf8Code (c :: s) ≠ [] := by
    intro c s empty
    have longer := utf8Code_respelling.length_le (c :: s)
    rw [empty, List.length_cons] at longer
    exact Nat.not_succ_le_zero _ longer
  intro s t same
  induction s generalizing t with
  | nil =>
    cases t with
    | nil => rfl
    | cons d t => exact absurd same.symm (nonempty d t)
  | cons c s ih =>
    cases t with
    | nil => exact absurd same (nonempty c s)
    | cons d t =>
      obtain ⟨rfl, rest⟩ := utf8Code_append_inj same
      rw [ih rest]

/-- `serde_json` on a number that is no integer of 64 bits: the double, or `none` where it is
out of range. -/
class SerdeJson where
  float : Text → Option (BitVec 64)

namespace SerdeJson

def isInteger (spelling : Text) : Bool := spelling.all (fun c => JsonText.isDigit c || c == 0x2d)

def number [SerdeJson] (spelling : Text) : Option JsonNumber :=
  let d := JsonText.decimal spelling
  if JsonText.nonFinite.contains spelling then none
  else if isInteger spelling ∧ d.negative = false ∧ d.digits < 2 ^ 64 then some (.int d.digits)
  else if isInteger spelling ∧ d.negative = true ∧ 0 < d.digits ∧ d.digits ≤ 2 ^ 63 then
    some (.int (-d.digits))
  else (float spelling).map .float

/-- A string. An escaped surrogate without its other half is refused. -/
def string (spelling : Text) : Option String :=
  let points := JsonText.points spelling
  if points.all (fun c => decide c.isValidChar) then some (String.ofList (points.map Char.ofNat))
  else none

mutual

/-- A `Value`. The last of several members of one name is kept. -/
def value [SerdeJson] : Tree → Option JsonValue
  | .null => some ⟨.null, rfl⟩
  | .bool b => some ⟨.bool b, rfl⟩
  | .num spelling => (number spelling).map (fun n => ⟨.num n, rfl⟩)
  | .str spelling => (string spelling).map (fun s => ⟨.str s, rfl⟩)
  | .arr items => (values items).map .array
  | .obj members => (entries members).map .object

def values [SerdeJson] : List Tree → Option (List JsonValue)
  | [] => some []
  | t :: items => do return (← value t) :: (← values items)

def entries [SerdeJson] : List (Text × Tree) → Option (List (String × JsonValue))
  | [] => some []
  | (name, t) :: members => do return (← string name, ← value t) :: (← entries members)

end

mutual

/-- How deep arrays and objects nest. -/
def depth : Tree → Nat
  | .arr items => depthOfItems items + 1
  | .obj members => depthOfMembers members + 1
  | .null | .bool _ | .num _ | .str _ => 0

def depthOfItems : List Tree → Nat
  | [] => 0
  | t :: items => max (depth t) (depthOfItems items)

def depthOfMembers : List (Text × Tree) → Nat
  | [] => 0
  | (_, t) :: members => max (depth t) (depthOfMembers members)

end

/-- The reader gives up at this nesting. -/
def recursionLimit : Nat := 128

/-- Some field of the struct is given twice. -/
def repeatsField (fields : List String) (members : List (Text × Tree)) : Bool :=
  decide ¬ ((members.filterMap (fun m => string m.1)).filter (· ∈ fields)).Nodup

def entryRepeatsField : Tree → Bool
  | .obj members => repeatsField ["kind", "value"] members
  | _ => false

def boundaryRepeatsField (m : Text × Tree) : Bool :=
  match m with
  | (name, .arr entries) => string name == some "scope_boundary" && entries.any entryRepeatsField
  | _ => false

/-- The document, or an entry of its boundary, gives a field of its struct twice. -/
def repeatsNamedField : Tree → Bool
  | .obj members => repeatsField vaidMemberNames members || members.any boundaryRepeatsField
  | _ => false

/-- The document where the last of several members of one name is kept. -/
def lastWins [SerdeJson] (tree : Tree) : Option Vaid :=
  if depth tree < recursionLimit then (value tree).bind Deserialize.vaid else none

/-- `serde_json::from_str::<Vaid>`. -/
def fromStr [SerdeJson] (json : String) : Option Vaid := do
  let tree ← JsonText.read (codes json)
  if repeatsNamedField tree then none else lastWins tree

end SerdeJson

theorem asciiWhitespace_stops :
    ∀ c ∈ [JsonText.comma, JsonText.colon, JsonText.closeBracket, JsonText.closeBrace],
      (c == 0x20 || c == 0x09 || c == 0x0a || c == 0x0c || c == 0x0d) = false := by
  decide

/-- What Rust skips between a name and its colon: `u8::is_ascii_whitespace`. -/
def asciiWhitespace : DuplicateNames.Space where
  skips c := c == 0x20 || c == 0x09 || c == 0x0a || c == 0x0c || c == 0x0d
  json c h := by
    simp only [JsonText.isSpace, Bool.or_eq_true, beq_iff_eq] at h ⊢
    omega
  stops := asciiWhitespace_stops

/-- Does the text name a member twice in one object? -/
def hasDuplicateMemberNames (json : String) : Bool :=
  DuplicateNames.hasDuplicateMemberNames asciiWhitespace (asBytes json)

def verifyVaidStandingFromJson [Crypto] [Chrono] [SerdeJson] (kernelPublicKey : Bytes)
    (documentJson : String) (revocation : RevocationStatus) (now : Instant) : VaidVerdict :=
  if hasDuplicateMemberNames documentJson then .unparseable
  else match SerdeJson.fromStr documentJson with
    | some vaid => verifyVaidStanding kernelPublicKey vaid revocation now
    | none => .unparseable

theorem hasDuplicateMemberNames_eq {json : String} {tree : Tree}
    (wellFormed : JsonText.read (codes json) = some tree) :
    hasDuplicateMemberNames json = tree.repeats id := by
  have bytes : JsonText.read (asBytes json) = some (tree.respelled utf8Code) := by
    rw [asBytes_eq, utf8Code_respelling.read_eq, wellFormed, Option.map_some]
  rw [hasDuplicateMemberNames, DuplicateNames.hasDuplicateMemberNames_eq bytes]
  exact JsonText.repeats_respelled respell_utf8Code_injective tree

section Verdicts

variable [Crypto]

theorem verifyVaidAuthenticityGraded_ne_unparseable (kernelPublicKey : Bytes) (vaid : Vaid) :
    verifyVaidAuthenticityGraded kernelPublicKey vaid ≠ .unparseable := by
  unfold verifyVaidAuthenticityGraded
  split_ifs <;> decide

variable [Chrono]

theorem verifyVaidStanding_ne_unparseable (kernelPublicKey : Bytes) (vaid : Vaid)
    (revocation : RevocationStatus) (now : Instant) :
    verifyVaidStanding kernelPublicKey vaid revocation now ≠ .unparseable := by
  unfold verifyVaidStanding
  dsimp only
  split_ifs
  · exact verifyVaidAuthenticityGraded_ne_unparseable kernelPublicKey vaid
  · decide
  · decide
  · cases revocation <;> decide

variable [SerdeJson]

theorem unparseable_iff {json : String} {tree : Tree}
    (wellFormed : JsonText.read (codes json) = some tree) (kernelPublicKey : Bytes)
    (revocation : RevocationStatus) (now : Instant) :
    verifyVaidStandingFromJson kernelPublicKey json revocation now = .unparseable ↔
      tree.repeats id = true ∨ SerdeJson.repeatsNamedField tree = true ∨
        SerdeJson.lastWins tree = none := by
  have parsed : SerdeJson.fromStr json =
      if SerdeJson.repeatsNamedField tree then none else SerdeJson.lastWins tree := by
    rw [SerdeJson.fromStr, wellFormed]
    rfl
  rw [verifyVaidStandingFromJson, hasDuplicateMemberNames_eq wellFormed, parsed]
  by_cases alike : tree.repeats id = true
  · simp [alike]
  by_cases named : SerdeJson.repeatsNamedField tree = true
  · simp [named]
  rw [if_neg alike, if_neg named]
  cases accepted : SerdeJson.lastWins tree with
  | none => simp
  | some vaid =>
    simpa [alike, named] using verifyVaidStanding_ne_unparseable kernelPublicKey vaid revocation now

omit [Crypto] [Chrono] in
/-- A repeated name that both gates miss: no object spells it twice alike, no field of the
struct is repeated, and what is left when the last member wins is a document. -/
structure Slips (tree : Tree) : Prop where
  repeated : tree.repeats JsonText.points = true
  spelledApart : tree.repeats id = false
  unnamed : SerdeJson.repeatsNamedField tree = false
  accepted : ∃ vaid, SerdeJson.lastWins tree = some vaid

/-- A well-formed text in which an object repeats a name, as decoded, is refused under every
key, unless the repetition slips through. -/
theorem duplicate_refused_iff (json : String) (tree : Tree)
    (wellFormed : JsonText.read (codes json) = some tree) :
    (tree.repeats JsonText.points = true →
        ∀ (kernelPublicKey : Bytes) (revocation : RevocationStatus) (now : Instant),
          verifyVaidStandingFromJson kernelPublicKey json revocation now = .unparseable) ↔
      ¬ Slips tree := by
  simp only [unparseable_iff wellFormed]
  constructor
  · intro refused ⟨repeated, spelledApart, unnamed, vaid, accepted⟩
    have reason := refused repeated [] .unavailable ⟨0, 0⟩
    rw [spelledApart, unnamed, accepted] at reason
    simp at reason
  · intro caught repeated _ _ _
    by_contra missed
    simp only [not_or, Bool.not_eq_true] at missed
    obtain ⟨spelledApart, unnamed, accepted⟩ := missed
    exact caught ⟨repeated, spelledApart, unnamed, Option.ne_none_iff_exists'.mp accepted⟩

end Verdicts

def quoted (s : String) : List Char := '"' :: s.toList ++ ['"']

def objectText (members : List (String × List Char)) : List Char :=
  '\x7b' :: List.intercalate [','] (members.map (fun m => quoted m.1 ++ ':' :: m.2)) ++ ['\x7d']

/-- A document without `sig_version`, and with one member that no field names. -/
def documentText (extra : List Char) : List Char :=
  objectText [("vaid_id", quoted "00000000-0000-4000-8000-000000000001"),
    ("agent_id", quoted "00000000-0000-4000-8000-000000000001"), ("agent_class", quoted ""),
    ("version", quoted ""), ("tenant_id", quoted ""), ("issued_at", quoted ""),
    ("expires_at", quoted ""), ("public_key_der", "[]".toList), ("kernel_signature", "[]".toList),
    ("scope_boundary", "[]".toList), ("lineage_hash", quoted ""), ("capability_set", "[]".toList),
    ("trust_domain", quoted ""), ("kernel_key_thumbprint", quoted ""), ("note", extra)]

/-- The same name twice, the second time with its letter escaped. -/
def escapedText : String :=
  String.ofList (documentText (objectText [("a", ['1']), ("\\u0061", ['2'])]))

/-- The same name twice, spelled alike. -/
def plainText : String := String.ofList (objectText [("a", ['1']), ("a", ['2'])])

theorem codes_ofList (chars : List Char) : codes (String.ofList chars) = chars.map Char.toNat := by
  rw [JsonText.codes, String.toList_ofList]

/-- A `serde_json` that reads no doubles. -/
@[reducible] def SerdeJson.integersOnly : SerdeJson where
  float _ := none

section Examples

attribute [local instance] Crypto.standIn SerdeJson.integersOnly

@[reducible] local instance : Chrono := .table []

theorem duplicate_refused_iff_plainText : ∃ tree, JsonText.read (codes plainText) = some tree ∧
    ((tree.repeats JsonText.points = true →
        ∀ (kernelPublicKey : Bytes) (revocation : RevocationStatus) (now : Instant),
          verifyVaidStandingFromJson kernelPublicKey plainText revocation now = .unparseable) ↔
      ¬ Slips tree) := by
  have readable : (JsonText.read (codes plainText)).isSome = true := by
    rw [plainText, codes_ofList]
    decide +kernel
  obtain ⟨tree, wellFormed⟩ := Option.isSome_iff_exists.mp readable
  exact ⟨tree, wellFormed, duplicate_refused_iff plainText tree wellFormed⟩

/-- An escaped repetition inside an unknown member is well-formed JSON, and is not refused. -/
theorem escapedText_not_refused :
    (∃ tree, JsonText.read (codes escapedText) = some tree ∧ tree.standard = true ∧
      tree.repeats JsonText.points = true) ∧
    ∀ kernelPublicKey revocation now,
      verifyVaidStandingFromJson kernelPublicKey escapedText revocation now ≠ .unparseable := by
  have slips : (JsonText.read (codes escapedText)).any (fun tree =>
      tree.standard && tree.repeats JsonText.points && !tree.repeats id &&
        !SerdeJson.repeatsNamedField tree && (SerdeJson.lastWins tree).isSome) = true := by
    rw [escapedText, codes_ofList]
    decide +kernel
  obtain ⟨tree, wellFormed, facts⟩ := (Option.any_eq_true _ _).mp slips
  simp only [Bool.and_eq_true, Bool.not_eq_true'] at facts
  obtain ⟨⟨⟨⟨standard, repeated⟩, spelledApart⟩, unnamed⟩, accepted⟩ := facts
  refine ⟨⟨tree, wellFormed, standard, repeated⟩, fun kernelPublicKey revocation now refused => ?_⟩
  have reason := (unparseable_iff wellFormed kernelPublicKey revocation now).mp refused
  rw [spelledApart, unnamed] at reason
  simp only [Bool.false_eq_true, false_or] at reason
  rw [reason] at accepted
  cases accepted

end Examples

end VaidSuite
