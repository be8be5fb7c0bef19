import VaidSuite.TypeScript.EvidenceBundle
import VaidSuite.TypeScript.VerifyCoreSpec

/-! What the content hash of an evidence bundle covers. Three members are taken out before
hashing, and the claimed hash is read from one of two of them: beside `content_hash`, a member
`contentHash` is neither read nor hashed. -/
namespace VaidSuite.TypeScript

namespace EvidenceBundle

def claimedName (bundle : Members) : JsStr :=
  ((field bundle "content_hash").map (fun found => js found.key)).getD []

/-- The members that the hash is to cover: all but the claimed hash and the signature. -/
def covered (bundle : Members) : Members :=
  bundle.filter (fun m => m.1 != claimedName bundle && m.1 != js "signature")

/-- A member `contentHash` that stands beside `content_hash`, where the claimed hash is read. -/
def spare (bundle : Members) : Option JsValue :=
  if (bundle.lookup (js "content_hash")).isSome then bundle.lookup (js "contentHash") else none

section Names

variable {bundle : Members}

theorem claimedName_of_own (own : (bundle.lookup (js "content_hash")).isSome = true) :
    claimedName bundle = js "content_hash" := by
  obtain ⟨v, held⟩ := Option.isSome_iff_exists.mp own
  rw [claimedName, field, List.findSome?_cons, held, Option.map_some, Option.map_some, Option.getD_some]

theorem claimedName_of_alias (own : (bundle.lookup (js "content_hash")).isSome = false)
    (shape : (field bundle "content_hash").isSome = true) :
    claimedName bundle = js "contentHash" := by
  have none_ : bundle.lookup (js "content_hash") = none := by simpa using own
  have tried : field bundle "content_hash" =
      (bundle.lookup (js "contentHash")).map (fun value => ⟨"contentHash", value⟩) := by
    rw [field, List.findSome?_cons, none_]
    show List.findSome? _ ["contentHash"] = _
    rw [List.findSome?_cons]
    cases bundle.lookup (js "contentHash") <;> rfl
  rw [tried] at shape
  rw [claimedName, tried]
  obtain ⟨found, given⟩ := Option.isSome_iff_exists.mp shape
  obtain ⟨v, held, rfl⟩ := Option.map_eq_some_iff.mp given
  rw [held, Option.map_some, Option.map_some, Option.getD_some]

theorem lookup_covered (shape : (field bundle "content_hash").isSome = true) (k : JsStr) :
    (covered bundle).lookup k =
      if k = js "contentHash" then spare bundle else (signedPart bundle).lookup k := by
  have others : js "contentHash" ≠ js "content_hash" := by decide
  have signature : js "contentHash" ≠ js "signature" := by decide
  rw [covered, SortedMap.lookup_filter (fun k => k != claimedName bundle && k != js "signature"),
    signedPart, SortedMap.lookup_filter (fun k => !strippedNames.contains k), spare]
  cases own : (bundle.lookup (js "content_hash")).isSome with
  | true =>
    rw [claimedName_of_own own]
    by_cases beside : k = js "contentHash"
    · subst beside
      simp [others, signature]
    · simp [strippedNames, beside]
  | false =>
    have absent : bundle.lookup (js "content_hash") = none := by simpa using own
    rw [claimedName_of_alias own shape]
    by_cases beside : k = js "contentHash"
    · simp [beside]
    · by_cases first : k = js "content_hash"
      · simp [first, absent]
      · simp [strippedNames, beside, first]

end Names

theorem nodup_filter {m : Members} (json : (JsValue.obj m).IsJson) (p : JsStr × JsValue → Bool) :
    ((m.filter p).map Prod.fst).Nodup := by
  rw [JsValue.IsJson] at json
  exact List.Nodup.sublist (List.filter_sublist.map Prod.fst) json.1

theorem nodup_covered {bundle : Members} (json : (JsValue.obj bundle).IsJson) :
    ((covered bundle).map Prod.fst).Nodup := nodup_filter json _

theorem nodup_signedPart {bundle : Members} (json : (JsValue.obj bundle).IsJson) :
    ((signedPart bundle).map Prod.fst).Nodup := nodup_filter json _

theorem isJson_signedPart {bundle : Members} (json : (JsValue.obj bundle).IsJson) :
    (JsValue.obj (signedPart bundle)).IsJson := by
  refine ⟨nodup_signedPart json, (isJsonMembers_iff _).mpr (fun m kept => ?_)⟩
  rw [JsValue.IsJson, isJsonMembers_iff] at json
  exact json.2 m (List.mem_of_mem_filter kept)

theorem normal_covered_iff {b₁ b₂ : Members} (json₁ : (JsValue.obj b₁).IsJson)
    (json₂ : (JsValue.obj b₂).IsJson) (shape₁ : (field b₁ "content_hash").isSome = true)
    (shape₂ : (field b₂ "content_hash").isSome = true) :
    (JsValue.obj (covered b₁)).normal = (JsValue.obj (covered b₂)).normal ↔
      (spare b₁).map JsValue.normal = (spare b₂).map JsValue.normal ∧
        (JsValue.obj (signedPart b₁)).normal = (JsValue.obj (signedPart b₂)).normal := by
  have unsigned : ∀ b : Members, (signedPart b).lookup (js "contentHash") = none := by
    intro b
    rw [signedPart, SortedMap.lookup_filter (fun k => !strippedNames.contains k)]
    simp [strippedNames]
  rw [normal_obj_iff (nodup_covered json₁) (nodup_covered json₂),
    normal_obj_iff (nodup_signedPart json₁) (nodup_signedPart json₂)]
  constructor
  · intro same
    have spares := same (js "contentHash")
    rw [lookup_covered shape₁, lookup_covered shape₂, if_pos rfl, if_pos rfl] at spares
    refine ⟨spares, fun k => ?_⟩
    have held := same k
    rw [lookup_covered shape₁, lookup_covered shape₂] at held
    split_ifs at held with beside
    · rw [beside, unsigned, unsigned]
    · exact held
  · rintro ⟨spares, signed⟩ k
    rw [lookup_covered shape₁, lookup_covered shape₂]
    split_ifs
    · exact spares
    · exact signed k

section Check

variable [Host] {session : Session} {opts : Options} {bundle : Members} {result : BundleResult}

def ContentHashPasses (bundle : Members) : Prop :=
  shapeRefusal bundle = none ∧ (contentHashFinding bundle).state = .pass

theorem contentHashFinding_pass : (contentHashFinding bundle).state = .pass ↔ hashMatches bundle = true := by
  unfold contentHashFinding
  split_ifs with matched <;> simp [matched]

omit [Host] in
theorem field_of_shape (shape : shapeRefusal bundle = none) {name : String} (listed : name ∈ required) :
    (field bundle name).isSome = true := by
  unfold shapeRefusal at shape
  simp only at shape
  split_ifs at shape with missing
  have all : ∀ name ∈ required, ¬ field bundle name = none := by simpa using missing
  exact Option.isSome_iff_ne_none.mpr (all name listed)

omit [Host] in
theorem shapeRefusal_findings (refused : shapeRefusal bundle = some result) :
    ∃ detail, result.findings = [shapeFinding .fail detail] := by
  unfold shapeRefusal at refused
  simp only at refused
  split_ifs at refused
  · exact ⟨_, by rw [← Option.some.inj refused, malformedBundle]⟩
  · exact ⟨_, by rw [← Option.some.inj refused, malformedBundle]⟩
  · split at refused
    · cases refused
    · exact ⟨_, by rw [← Option.some.inj refused, malformedBundle]⟩

theorem namesFinding_id {finding : Finding} (made : namesFinding bundle = .ok finding) :
    finding.id = "shape" := by
  unfold namesFinding at made
  simp only at made
  split_ifs at made
  · rw [← Except.ok.inj made, shapeFinding]
  · obtain ⟨scope, _, made⟩ := Raising.of_bind_eq_ok made
    obtain ⟨tenant, _, made⟩ := Raising.of_bind_eq_ok made
    obtain ⟨generated, _, made⟩ := Raising.of_bind_eq_ok made
    rw [← Except.ok.inj made, shapeFinding]

theorem contentHashFinding_id : (contentHashFinding bundle).id = "content_hash" := by
  unfold contentHashFinding
  split_ifs <;> rfl

theorem contentHashPasses_iff (run : verifyBundle session opts bundle = .ok result) :
    ContentHashPasses bundle ↔
      ∃ f, result.findings.find? (fun f => f.id = "content_hash") = some f ∧ f.state = .pass := by
  rcases of_verifyBundle_eq_ok run with refused | ⟨shape, names, _, _, _, _, named, _, _, _, _, rfl⟩
  · obtain ⟨detail, findings⟩ := shapeRefusal_findings refused
    simp [ContentHashPasses, refused, findings, shapeFinding]
  · simp [ContentHashPasses, shape, namesFinding_id named, contentHashFinding_id]

theorem canonicalJson_of_passes {b₁ b₂ : Members} (json₁ : (JsValue.obj b₁).IsJson)
    (json₂ : (JsValue.obj b₂).IsJson) (matched₁ : hashMatches b₁ = true) (matched₂ : hashMatches b₂ = true)
    (same : claimedHash b₁ = claimedHash b₂)
    (collisionFree : Runtime.sha256 (utf8 (canonical b₁)) = Runtime.sha256 (utf8 (canonical b₂)) →
      utf8 (canonical b₁) = utf8 (canonical b₂)) :
    canonicalJson (.obj (signedPart b₁)) = canonicalJson (.obj (signedPart b₂)) := by
  have hashes : recomputed b₁ = recomputed b₂ := by
    rw [hashMatches, beq_iff_eq] at matched₁ matched₂
    rw [matched₁, matched₂, same]
  have bytes := collisionFree (lowerHex_injective (js_injective hashes))
  rw [utf8, utf8, canonical, canonical, canonicalJson_eq _ (isJson_signedPart json₁),
    canonicalJson_eq _ (isJson_signedPart json₂)] at bytes
  rw [canonicalJson_eq _ (isJson_signedPart json₁), canonicalJson_eq _ (isJson_signedPart json₂)]
  exact congrArg some (encode_injective (isUnicode_canonicalTree _) (isUnicode_canonicalTree _) bytes)

/-- Bundles of one content hash are equal on all that the hash is to cover exactly where they
have the same spare member, and the same values where `null` is hashed. -/
theorem contentHash_covers {text₁ text₂ : JsStr} {b₁ b₂ : Members}
    (parsed₁ : jsonParse text₁ = some (.obj b₁)) (parsed₂ : jsonParse text₂ = some (.obj b₂))
    (passes₁ : ContentHashPasses b₁) (passes₂ : ContentHashPasses b₂)
    (same : claimedHash b₁ = claimedHash b₂)
    (collisionFree : Runtime.sha256 (utf8 (canonical b₁)) = Runtime.sha256 (utf8 (canonical b₂)) →
      utf8 (canonical b₁) = utf8 (canonical b₂)) :
    (JsValue.obj (covered b₁)).normal = (JsValue.obj (covered b₂)).normal ↔
      (spare b₁).map JsValue.normal = (spare b₂).map JsValue.normal ∧
        (JsValue.obj (signedPart b₁)).normal.nulls = (JsValue.obj (signedPart b₂)).normal.nulls := by
  have json₁ := isJson_of_jsonParse parsed₁
  have json₂ := isJson_of_jsonParse parsed₂
  have form := canonicalJson_of_passes json₁ json₂ (contentHashFinding_pass.mp passes₁.2)
    (contentHashFinding_pass.mp passes₂.2) same collisionFree
  rw [normal_covered_iff json₁ json₂ (field_of_shape passes₁.1 (by decide))
      (field_of_shape passes₂.1 (by decide)),
    normal_of_canonicalJson (isJson_signedPart json₁) (isJson_signedPart json₂) form]

end Check

section Example

/-- The digest of the one text that is hashed here, and nothing else of Node. -/
@[reducible] def Host.example : Host where
  toRuntime := { Runtime.toy with
    sha256 := fun bytes =>
      if bytes = encode (objectText [("actor", quoted (js "agent")), ("audit_entries", js "[]"),
          ("decisions", js "[]"), ("delegation_chain", js "[]"),
          ("generated_at", quoted (js "2026-07-01T00:00:00Z")), ("scope", quoted (js "tenant")),
          ("tenant_id", quoted (js "acme")), ("version", quoted bundleVersion)]) then
        [0xd5, 0xb1, 0x70, 0x2c, 0x84, 0x37, 0xf8, 0xdf, 0x73, 0xd7, 0x62, 0xd1, 0xdd, 0xd0, 0x4c, 0x1b,
          0x58, 0x55, 0x37, 0x74, 0x5e, 0x70, 0xb9, 0xb2, 0x5c, 0xfa, 0xf3, 0x00, 0x7d, 0x83, 0x16, 0x94]
      else [] }
  unb64u _ := none
  toISOString _ := []
  messageOf _ := []

local instance : Host := Host.example

def bundleText (more : List (String × JsStr)) : JsStr :=
  objectText ([("version", quoted bundleVersion), ("scope", quoted (js "tenant")),
    ("tenant_id", quoted (js "acme")), ("generated_at", quoted (js "2026-07-01T00:00:00Z")),
    ("actor", quoted (js "agent")), ("delegation_chain", js "[]"), ("decisions", js "[]"),
    ("audit_entries", js "[]"), ("signature", objectText [("sig_b64", quoted [])])] ++ more)

def exampleHash : JsStr := js "d5b1702c8437f8df73d762d1ddd04c1b585537745e70b9b25cfaf3007d831694"

def bareText : JsStr := bundleText [("content_hash", quoted exampleHash)]

/-- The same bundle, its hash under the other name. -/
def renamedText : JsStr := bundleText [("contentHash", quoted exampleHash)]

/-- The same bundle, with a member more. -/
def spareText : JsStr :=
  bundleText [("content_hash", quoted exampleHash), ("contentHash", quoted (js "altered"))]

def membersOf (text : JsStr) : Members :=
  match jsonParse text with
  | some (.obj members) => members
  | _ => []

def readsObject (text : JsStr) : Bool :=
  match jsonParse text with
  | some (.obj _) => true
  | _ => false

theorem jsonParse_membersOf {text : JsStr} (reads : readsObject text = true) :
    jsonParse text = some (.obj (membersOf text)) := by
  unfold readsObject at reads
  unfold membersOf
  split at reads
  · rename_i members parsed
    rw [parsed]
  · cases reads

theorem example_passes : ∀ text ∈ [bareText, renamedText, spareText], readsObject text = true ∧
    (shapeRefusal (membersOf text)).isNone = true ∧ hashMatches (membersOf text) = true ∧
    claimedHash (membersOf text) = exampleHash := by
  decide +kernel

theorem passes_of_listed (text : JsStr) (listed : text ∈ [bareText, renamedText, spareText]) :
    jsonParse text = some (.obj (membersOf text)) ∧ ContentHashPasses (membersOf text) ∧
      claimedHash (membersOf text) = exampleHash := by
  obtain ⟨reads, shape, matched, claimed⟩ := example_passes text listed
  exact ⟨jsonParse_membersOf reads, ⟨Option.isNone_iff_eq_none.mp shape, contentHashFinding_pass.mpr matched⟩,
    claimed⟩

theorem example_canonical : canonical (membersOf renamedText) = canonical (membersOf bareText) ∧
    canonical (membersOf spareText) = canonical (membersOf bareText) := by
  decide +kernel

/-- The other name of the hash is no difference that the hash is to cover. -/
theorem contentHash_covers_renamed : (JsValue.obj (covered (membersOf bareText))).normal =
    (JsValue.obj (covered (membersOf renamedText))).normal := by
  obtain ⟨parsed, passes, claimed⟩ := passes_of_listed bareText (by simp)
  obtain ⟨parsed', passes', claimed'⟩ := passes_of_listed renamedText (by simp)
  refine (contentHash_covers parsed parsed' passes passes' (claimed.trans claimed'.symm)
    (fun _ => by rw [example_canonical.1])).mpr ⟨?_, ?_⟩
  · have none_ : (spare (membersOf bareText)).isNone = true ∧ (spare (membersOf renamedText)).isNone = true := by
      decide +kernel
    rw [Option.isNone_iff_eq_none.mp none_.1, Option.isNone_iff_eq_none.mp none_.2]
  · have empty : (JsValue.obj (signedPart (membersOf bareText))).normal.nulls.isEmpty = true ∧
        (JsValue.obj (signedPart (membersOf renamedText))).normal.nulls.isEmpty = true := by
      decide +kernel
    rw [List.isEmpty_iff.mp empty.1, List.isEmpty_iff.mp empty.2]

/-- A member was added, and the check passes with the same hash. -/
theorem spareMember_passes : ∃ b₁ b₂ : Members, jsonParse bareText = some (.obj b₁) ∧
    jsonParse spareText = some (.obj b₂) ∧ ContentHashPasses b₁ ∧ ContentHashPasses b₂ ∧
    claimedHash b₁ = claimedHash b₂ ∧ utf8 (canonical b₁) = utf8 (canonical b₂) ∧
    (covered b₁).lookup (js "contentHash") = none ∧
    (covered b₂).lookup (js "contentHash") = some (.str (js "altered")) ∧
    (JsValue.obj (covered b₁)).normal ≠ (JsValue.obj (covered b₂)).normal := by
  obtain ⟨parsed, passes, claimed⟩ := passes_of_listed bareText (by simp)
  obtain ⟨parsed', passes', claimed'⟩ := passes_of_listed spareText (by simp)
  have read : ((covered (membersOf bareText)).lookup (js "contentHash")).isNone = true ∧
      ((covered (membersOf spareText)).lookup (js "contentHash")).bind JsValue.asStr =
        some (js "altered") := by
    decide +kernel
  have absent := Option.isNone_iff_eq_none.mp read.1
  obtain ⟨v, held, shown⟩ := Option.bind_eq_some_iff.mp read.2
  have altered : v = .str (js "altered") := by
    cases v with
    | str s => rw [Option.some.inj shown]
    | _ => cases shown
  rw [altered] at held
  refine ⟨membersOf bareText, membersOf spareText, parsed, parsed', passes, passes',
    claimed.trans claimed'.symm, congrArg utf8 example_canonical.2.symm, absent, held, fun same => ?_⟩
  have names : ((covered (membersOf bareText)).lookup (js "contentHash")).map JsValue.normal =
      ((covered (membersOf spareText)).lookup (js "contentHash")).map JsValue.normal :=
    (normal_obj_iff (nodup_covered (isJson_of_jsonParse parsed))
      (nodup_covered (isJson_of_jsonParse parsed'))).mp same _
  rw [absent, held] at names
  cases names

end Example

end EvidenceBundle

end VaidSuite.TypeScript
