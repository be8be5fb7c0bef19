import VaidSuite.Base64
import VaidSuite.TypeScript.FromJson
import VaidSuite.TypeScript.PlainJson
import VaidSuite.TypeScript.TextDecoder
import VaidSuite.TypeScript.VerifyCoreSpec

/-! Packing a document and its ancestors into one token, and what the token, the envelope
and the bare document are read back as. -/
namespace VaidSuite.TypeScript

/-- `JSON.stringify` of an object. -/
def jsonText (v : JsValue) : JsStr := unitsOf ((stringify v).getD [])

/-- `btoa` of the bytes, in the alphabet for URLs and without padding. -/
def toBase64Url (bytes : Bytes) : JsStr := (base64Url bytes).flatMap utf16

/-- The chain is omitted for a root. -/
def envelopeBody (vaid : JsValue) (chain : List JsValue) : JsValue :=
  .obj ([(js "v", .ofNat 1), (js "vaid", vaid)] ++ if chain.isEmpty then [] else [(js "chain", .arr chain)])

def packEnvelope (vaid : JsValue) (chain : List JsValue) : EnvelopeResult JsStr :=
  match vaid with
  | .obj _ | .arr _ => .ok (envelopePrefix ++ toBase64Url (encode (jsonText (envelopeBody vaid chain))))
  | _ => .error (js "no VAID document to pack")

mutual

def JsValue.IsFinite : JsValue → Prop
  | .num b => Binary64.isFinite b = true
  | .arr items => FiniteItems items
  | .obj members => FiniteMembers members
  | _ => True

def FiniteItems : List JsValue → Prop
  | [] => True
  | v :: items => v.IsFinite ∧ FiniteItems items

def FiniteMembers : List (JsStr × JsValue) → Prop
  | [] => True
  | (_, v) :: members => v.IsFinite ∧ FiniteMembers members

end

mutual

def JsValue.finite : JsValue → Bool
  | .num b => Binary64.isFinite b
  | .arr items => finiteItems items
  | .obj members => finiteMembers members
  | _ => true

def finiteItems : List JsValue → Bool
  | [] => true
  | v :: items => v.finite && finiteItems items

def finiteMembers : List (JsStr × JsValue) → Bool
  | [] => true
  | (_, v) :: members => v.finite && finiteMembers members

end

mutual

theorem finite_iff : ∀ v : JsValue, v.finite = true ↔ v.IsFinite
  | .undefined | .null | .bool _ | .str _ => by simp [JsValue.finite, JsValue.IsFinite]
  | .num b => by rw [JsValue.finite, JsValue.IsFinite]
  | .arr items => by rw [JsValue.finite, JsValue.IsFinite, finiteItems_eq_true_iff items]
  | .obj members => by rw [JsValue.finite, JsValue.IsFinite, finiteMembers_eq_true_iff members]

theorem finiteItems_eq_true_iff : ∀ items : List JsValue, finiteItems items = true ↔ FiniteItems items
  | [] => by simp [finiteItems, FiniteItems]
  | v :: items => by
    rw [finiteItems, FiniteItems, Bool.and_eq_true, finite_iff v, finiteItems_eq_true_iff items]

theorem finiteMembers_eq_true_iff : ∀ members : List (JsStr × JsValue),
    finiteMembers members = true ↔ FiniteMembers members
  | [] => by simp [finiteMembers, FiniteMembers]
  | (_, v) :: members => by
    rw [finiteMembers, FiniteMembers, Bool.and_eq_true, finite_iff v, finiteMembers_eq_true_iff members]

end

instance (v : JsValue) : Decidable v.IsFinite := decidable_of_iff _ (finite_iff v)

mutual

/-- The value with one zero, as `===` tells numbers apart. -/
def JsValue.zeroed : JsValue → JsValue
  | .num b => .num (if Binary64.isZero b then 0 else b)
  | .arr items => .arr (zeroedItems items)
  | .obj members => .obj (zeroedMembers members)
  | v => v

def zeroedItems : List JsValue → List JsValue
  | [] => []
  | v :: items => v.zeroed :: zeroedItems items

def zeroedMembers : List (JsStr × JsValue) → List (JsStr × JsValue)
  | [] => []
  | (name, v) :: members => (name, v.zeroed) :: zeroedMembers members

end

mutual

theorem written_eq_zeroed_iff : ∀ v : JsValue, v.written = v.zeroed ↔ v.IsFinite
  | .undefined | .null | .bool _ | .str _ => by simp [JsValue.written, JsValue.zeroed, JsValue.IsFinite]
  | .num b => by
    rw [JsValue.written, JsValue.zeroed, JsValue.IsFinite]
    split_ifs with finite <;> simp [finite]
  | .arr items => by
    rw [JsValue.written, JsValue.zeroed, JsValue.IsFinite, JsValue.arr.injEq, writtenItems_eq_zeroed_iff items]
  | .obj members => by
    rw [JsValue.written, JsValue.zeroed, JsValue.IsFinite, JsValue.obj.injEq, writtenMembers_eq_zeroed_iff members]

theorem writtenItems_eq_zeroed_iff : ∀ items : List JsValue, writtenItems items = zeroedItems items ↔ FiniteItems items
  | [] => by simp [writtenItems, zeroedItems, FiniteItems]
  | v :: items => by
    rw [writtenItems, zeroedItems, FiniteItems, List.cons.injEq, written_eq_zeroed_iff v,
      writtenItems_eq_zeroed_iff items]

theorem writtenMembers_eq_zeroed_iff : ∀ members : List (JsStr × JsValue),
    writtenMembers members = zeroedMembers members ↔ FiniteMembers members
  | [] => by simp [writtenMembers, zeroedMembers, FiniteMembers]
  | (name, v) :: members => by
    rw [writtenMembers, zeroedMembers, FiniteMembers, List.cons.injEq, Prod.mk.injEq, written_eq_zeroed_iff v,
      writtenMembers_eq_zeroed_iff members, and_iff_right rfl]

end

theorem finiteItems_iff (items : List JsValue) : FiniteItems items ↔ ∀ v ∈ items, v.IsFinite := by
  induction items with
  | nil => simp [FiniteItems]
  | cons v items ih => rw [FiniteItems, ih, List.forall_mem_cons]

theorem finiteMembers_iff (members : List (JsStr × JsValue)) :
    FiniteMembers members ↔ ∀ m ∈ members, m.2.IsFinite := by
  induction members with
  | nil => simp [FiniteMembers]
  | cons m members ih =>
    obtain ⟨name, v⟩ := m
    rw [FiniteMembers, ih, List.forall_mem_cons]

mutual

theorem isFinite_ordered : ∀ v : JsValue, v.ordered.IsFinite ↔ v.IsFinite
  | .undefined | .null | .bool _ | .num _ | .str _ => by simp [JsValue.ordered]
  | .arr items => by
    rw [JsValue.ordered, JsValue.IsFinite, JsValue.IsFinite, finiteItems_iff, finiteItems_iff, orderedItems_eq,
      List.forall_mem_map]
    exact forall₂_congr (isFinite_orderedItems items)
  | .obj members => by
    rw [JsValue.ordered, JsValue.IsFinite, JsValue.IsFinite, finiteMembers_iff, finiteMembers_iff, orderedMembers_eq]
    simp only [(ownOrder_perm _).mem_iff]
    rw [List.forall_mem_map]
    exact forall₂_congr (isFinite_orderedMembers members)

theorem isFinite_orderedItems : ∀ items : List JsValue, ∀ v ∈ items, v.ordered.IsFinite ↔ v.IsFinite
  | [] => by simp
  | v :: items => List.forall_mem_cons.mpr ⟨isFinite_ordered v, isFinite_orderedItems items⟩

theorem isFinite_orderedMembers : ∀ members : List (JsStr × JsValue),
    ∀ m ∈ members, (Prod.map id JsValue.ordered m).2.IsFinite ↔ m.2.IsFinite
  | [] => by simp
  | (_, v) :: members => List.forall_mem_cons.mpr ⟨isFinite_ordered v, isFinite_orderedMembers members⟩

end

theorem sextetOf_sextet : ∀ n < 64, utf16 (sextet n) = [Fin.ofNat 0x10000 (sextet n).toNat] ∧
    sextetOf (Fin.ofNat 0x10000 (sextet n).toNat) = some n ∧
    isWhiteSpace (Fin.ofNat 0x10000 (sextet n).toNat) = false := by
  decide +kernel

theorem toBase64Url_eq (bytes : Bytes) :
    toBase64Url bytes = (sextets bytes).map (fun n => Fin.ofNat 0x10000 (sextet n).toNat) := by
  have units : ∀ ns : List Nat, (∀ n ∈ ns, n < 64) → (ns.map sextet).flatMap utf16 =
      ns.map (fun n => Fin.ofNat 0x10000 (sextet n).toNat) := by
    intro ns small
    induction ns with
    | nil => rfl
    | cons n ns ih =>
      rw [List.forall_mem_cons] at small
      rw [List.map_cons, List.flatMap_cons, (sextetOf_sextet n small.1).1, ih small.2, List.map_cons]
      rfl
  rw [toBase64Url, base64Url_eq, units _ (sextets_lt bytes)]

theorem mapM_sextetOf (bytes : Bytes) : (toBase64Url bytes).mapM sextetOf = some (sextets bytes) := by
  have read : ∀ ns : List Nat, (∀ n ∈ ns, n < 64) →
      (ns.map (fun n => Fin.ofNat 0x10000 (sextet n).toNat)).mapM sextetOf = some ns := by
    intro ns small
    induction ns with
    | nil => rfl
    | cons n ns ih =>
      rw [List.forall_mem_cons] at small
      rw [List.map_cons, List.mapM_cons, (sextetOf_sextet n small.1).2.1, ih small.2]
      rfl
  rw [toBase64Url_eq, read _ (sextets_lt bytes)]

theorem fromBase64Url_sextets (bytes : Bytes) : fromBase64Url (sextets bytes) = some bytes := by
  have length := length_sextets bytes
  rw [fromBase64Url, if_neg (by omega), decodeSextets_sextets]

theorem filter_dropWhile (s : JsStr) : (s.dropWhile isWhiteSpace).filter (fun c => !isWhiteSpace c) =
    s.filter (fun c => !isWhiteSpace c) := by
  induction s with
  | nil => rfl
  | cons c s ih =>
    cases blank : isWhiteSpace c with
    | true => rw [List.dropWhile_cons_of_pos blank, ih, List.filter_cons_of_neg (by simp [blank])]
    | false => rw [List.dropWhile_cons_of_neg (by simp [blank])]

theorem dropWhile_solid {c : CodeUnit} (solid : isWhiteSpace c = false) (s : JsStr) :
    (c :: s).dropWhile isWhiteSpace = c :: s :=
  List.dropWhile_cons_of_neg (by simp [solid])

theorem trim_append {first last : CodeUnit} {before : JsStr} (begins : before.head? = some first)
    (ends : before.getLast? = some last) (solid : isWhiteSpace first = false)
    (solid' : isWhiteSpace last = false) (after : JsStr) :
    trim (before ++ after) = before ++ (after.reverse.dropWhile isWhiteSpace).reverse := by
  obtain ⟨tail, rfl⟩ := List.head?_eq_some_iff.mp begins
  obtain ⟨init, whole⟩ := List.getLast?_eq_some_iff.mp ends
  have kept : (first :: tail).reverse.dropWhile isWhiteSpace = (first :: tail).reverse := by
    rw [whole, List.reverse_concat, dropWhile_solid solid']
  rw [trim, List.cons_append, dropWhile_solid solid, ← List.cons_append, List.reverse_append,
    List.dropWhile_append, kept]
  split_ifs with blank
  · rw [List.isEmpty_iff.mp blank, List.reverse_reverse, List.reverse_nil, List.append_nil]
  · rw [List.reverse_append, List.reverse_reverse]

theorem envelopeJson_token {text : JsStr} (unicode : ∃ chars : List Char, text = chars.flatMap utf16)
    {first : CodeUnit} (begins : text.head? = some first) (unmarked : first ≠ 0xfeff) {spaced : JsStr}
    (spells : spaced.filter (fun c => !isWhiteSpace c) = toBase64Url (encode text)) :
    envelopeJson (envelopePrefix ++ spaced) = .ok text := by
  have trimmed : trim (envelopePrefix ++ spaced) = _ :=
    trim_append rfl rfl (by decide) (by decide) spaced
  have kept : ((spaced.reverse.dropWhile isWhiteSpace).reverse).filter (fun c => !isWhiteSpace c) =
      spaced.filter (fun c => !isWhiteSpace c) := by
    rw [List.filter_reverse, filter_dropWhile, ← List.filter_reverse, List.reverse_reverse]
  generalize (spaced.reverse.dropWhile isWhiteSpace).reverse = rest at trimmed kept
  have prefixed : envelopePrefix.isPrefixOf (envelopePrefix ++ rest) = true :=
    List.isPrefixOf_iff_prefix.mpr (List.prefix_append _ _)
  have whole : decode (encode text) = text :=
    decode_encode unicode (by rw [begins]; exact fun marked => unmarked (Option.some.inj marked))
  have nonempty : sextets (encode text) ≠ [] := by
    intro empty
    have bytes := decodeSextets_sextets (encode text)
    rw [empty] at bytes
    rw [← bytes] at whole
    rw [← whole] at begins
    cases begins
  have some_ : envelopePrefix ++ rest ≠ [] := fun empty =>
    absurd (List.append_eq_nil_iff.mp empty).1 (by decide)
  obtain ⟨n, ns, spelled⟩ := List.exists_cons_of_ne_nil nonempty
  unfold envelopeJson
  rw [trimmed, if_neg some_, if_pos prefixed, List.drop_left, kept, spells]
  dsimp only
  rw [mapM_sextetOf, spelled]
  dsimp only
  rw [← spelled, fromBase64Url_sextets]
  dsimp only
  rw [whole]

theorem envelopeJson_object {text : JsStr} (begins : text.head? = some 0x7b) (ends : text.getLast? = some 0x7d) :
    envelopeJson text = .ok text := by
  have trimmed := trim_append begins ends (by decide) (by decide) []
  rw [List.append_nil, List.reverse_nil, List.dropWhile_nil, List.reverse_nil, List.append_nil] at trimmed
  obtain ⟨tail, rfl⟩ := List.head?_eq_some_iff.mp begins
  unfold envelopeJson
  rw [trimmed, if_neg (List.cons_ne_nil _ _), if_neg, if_pos]
  · exact List.isPrefixOf_iff_prefix.mpr (List.prefix_append _ tail)
  · rw [List.isPrefixOf_iff_prefix]
    rintro ⟨rest, same⟩
    cases same

theorem braces_stringify {members : Members} (json : (JsValue.obj members).IsJson) :
    (jsonText (.obj members)).head? = some 0x7b ∧ (jsonText (.obj members)).getLast? = some 0x7d := by
  rw [jsonText, stringify_eq _ json, Option.getD_some, JsValue.ordered, plainTree, JsonText.Tree.text, unitsOf,
    List.map_cons, List.map_append, List.map_singleton, ← List.cons_append, List.getLast?_concat]
  exact ⟨rfl, rfl⟩

/-- `JSON.stringify` writes a text that is read as the members, in their order. -/
def rewritten (members : Members) : Members := writtenMembers (ownOrder (orderedMembers members))

theorem written_ordered (members : Members) :
    (JsValue.obj members).ordered.written = .obj (rewritten members) := by
  rw [JsValue.ordered, JsValue.written, rewritten]

theorem jsonText_spec {v : JsValue} (json : v.IsJson) :
    (∃ chars : List Char, jsonText v = chars.flatMap utf16) ∧ jsonParse (jsonText v) = some v.ordered.written := by
  obtain ⟨text, stringified, unicode, parsed⟩ := jsonParse_stringify json
  rw [jsonText, stringified, Option.getD_some]
  exact ⟨unicode.units.1, parsed⟩

theorem ownOrder_plain {α : Type} {members : List (JsStr × α)} (plain : ∀ m ∈ members, arrayIndex m.1 = none) :
    ownOrder members = members := by
  have noIndex : members.filter (fun m => (arrayIndex m.1).isSome) = [] :=
    List.filter_eq_nil_iff.mpr (fun m member => by rw [plain m member]; decide)
  have all : members.filter (fun m => (arrayIndex m.1).isNone) = members :=
    List.filter_eq_self.mpr (fun m member => by rw [plain m member]; rfl)
  rw [ownOrder, noIndex, all]
  rfl

theorem arrayIndex_names : arrayIndex (js "v") = none ∧ arrayIndex (js "vaid") = none ∧
    arrayIndex (js "chain") = none := by
  decide +kernel

theorem names_nodup : [js "v", js "vaid"].Nodup ∧ [js "v", js "vaid", js "chain"].Nodup := by decide +kernel

theorem chainDocuments_obj (chain : List Members) : chainDocuments (chain.map .obj) = .ok chain := by
  rw [chainDocuments, List.mapM_map]
  exact (Raising.mapM_ok (g := id) (fun _ _ => rfl)).trans (by rw [List.map_id])

theorem body_written (vaid : Members) (chain : List Members) :
    (envelopeBody (.obj vaid) (chain.map .obj)).ordered.written =
      envelopeBody (.obj (rewritten vaid)) ((chain.map rewritten).map .obj) := by
  obtain ⟨v, vaidName, chainName⟩ := arrayIndex_names
  have one : (JsValue.ofNat 1).ordered.written = .ofNat 1 := by
    have finite : Binary64.isFinite (Binary64.ofNat 1) = true := by decide +kernel
    have nonzero : Binary64.isZero (Binary64.ofNat 1) = false := by decide +kernel
    simp [JsValue.ofNat, JsValue.ordered, JsValue.written, finite, nonzero]
  have each : writtenItems (orderedItems (chain.map .obj)) = (chain.map rewritten).map .obj := by
    rw [writtenItems_eq, orderedItems_eq, List.map_map, List.map_map, List.map_map]
    exact List.map_congr_left (fun d _ => written_ordered d)
  have plain : ∀ m ∈ orderedMembers ([(js "v", JsValue.ofNat 1), (js "vaid", .obj vaid)] ++
      if (chain.map JsValue.obj).isEmpty then [] else [(js "chain", .arr (chain.map .obj))]),
      arrayIndex m.1 = none := by
    rw [orderedMembers_eq]
    refine List.forall_mem_map.mpr (List.forall_mem_append.mpr ⟨?_, ?_⟩)
    · simpa using ⟨v, vaidName⟩
    · cases (chain.map JsValue.obj).isEmpty
      · simpa using chainName
      · simp
  rw [envelopeBody, written_ordered, rewritten, ownOrder_plain plain, writtenMembers_eq, orderedMembers_eq,
    List.map_map, List.map_append, envelopeBody, ← each]
  refine congrArg JsValue.obj (congrArg₂ (· ++ ·) ?_ ?_)
  · rw [List.map_cons, List.map_singleton, Function.comp_apply, Function.comp_apply, Prod.map_apply, Prod.map_apply,
      Prod.map_apply, Prod.map_apply, one, written_ordered]
    rfl
  · cases chain with
    | nil => rfl
    | cons first rest =>
      simp [orderedItems, writtenItems, JsValue.ordered, JsValue.written]

section Verifier

variable [Runtime]

theorem normalise_body (vaid : Members) (chain : List Members) :
    normalise (envelopeBody (.obj vaid) (chain.map .obj)) = .ok ⟨vaid, chain, false⟩ := by
  cases chain with
  | nil => rfl
  | cons first rest =>
    have read : normalise (envelopeBody (.obj vaid) ((first :: rest).map .obj)) =
        (chainDocuments ((first :: rest).map .obj)).map (fun chain => ⟨vaid, chain, false⟩) := rfl
    rw [read, chainDocuments_obj]
    rfl

omit [Runtime] in
theorem isJson_body {vaid : Members} {chain : List Members} (json : (JsValue.obj vaid).IsJson)
    (jsons : ∀ d ∈ chain, (JsValue.obj d).IsJson) : (envelopeBody (.obj vaid) (chain.map .obj)).IsJson := by
  rw [envelopeBody, JsValue.IsJson, isJsonMembers_iff, List.forall_mem_append, List.map_append, List.forall_mem_cons,
    List.forall_mem_singleton]
  cases chain with
  | nil => exact ⟨names_nodup.1, ⟨trivial, json⟩, by simp⟩
  | cons first rest =>
    refine ⟨names_nodup.2, ⟨trivial, json⟩, ?_⟩
    rw [List.map_cons, List.isEmpty_cons, if_neg Bool.false_ne_true, List.forall_mem_singleton, JsValue.IsJson,
      isJsonItems_iff, ← List.map_cons]
    exact List.forall_mem_map.mpr jsons

section Spellings

variable {vaid : Members} {chain : List Members} (json : (JsValue.obj vaid).IsJson)
  (jsons : ∀ d ∈ chain, (JsValue.obj d).IsJson)

include json jsons

theorem parseEnvelope_token {spaced : JsStr} (spells : spaced.filter (fun c => !isWhiteSpace c) =
      toBase64Url (encode (jsonText (envelopeBody (.obj vaid) (chain.map .obj))))) :
    parseEnvelope (envelopePrefix ++ spaced) = .ok ⟨rewritten vaid, chain.map rewritten, false⟩ := by
  obtain ⟨unicode, parsed⟩ := jsonText_spec (isJson_body json jsons)
  have begins : (jsonText (envelopeBody (.obj vaid) (chain.map .obj))).head? = some 0x7b :=
    (braces_stringify (isJson_body json jsons)).1
  rw [parseEnvelope, envelopeJson_token unicode begins (by decide) spells, Raising.ok_bind, parseJson, parsed]
  dsimp only
  rw [Raising.ok_bind, body_written, normalise_body]

theorem parseEnvelope_body : parseEnvelope (jsonText (envelopeBody (.obj vaid) (chain.map .obj))) =
    .ok ⟨rewritten vaid, chain.map rewritten, false⟩ := by
  obtain ⟨-, parsed⟩ := jsonText_spec (isJson_body json jsons)
  obtain ⟨begins, ends⟩ := braces_stringify (isJson_body json jsons)
  have read : envelopeJson (jsonText (envelopeBody (.obj vaid) (chain.map .obj))) = .ok _ :=
    envelopeJson_object begins ends
  rw [parseEnvelope, read, Raising.ok_bind, parseJson, parsed]
  dsimp only
  rw [Raising.ok_bind, body_written, normalise_body]

omit jsons in
theorem parseEnvelope_bare : parseEnvelope (jsonText (.obj vaid)) = normalise (.obj (rewritten vaid)) := by
  obtain ⟨-, parsed⟩ := jsonText_spec json
  obtain ⟨begins, ends⟩ := braces_stringify json
  rw [parseEnvelope, envelopeJson_object begins ends, Raising.ok_bind, parseJson, parsed]
  dsimp only
  rw [Raising.ok_bind, written_ordered]

end Spellings

omit [Runtime] in
theorem token_solid (bytes : Bytes) : (toBase64Url bytes).filter (fun c => !isWhiteSpace c) = toBase64Url bytes := by
  rw [List.filter_eq_self, toBase64Url_eq]
  refine List.forall_mem_map.mpr (fun n member => ?_)
  rw [(sextetOf_sextet n (sextets_lt bytes n member)).2.2]
  rfl

inductive Spaced : JsStr → JsStr → Prop
  | nil : Spaced [] []
  | keep (c : CodeUnit) {s t : JsStr} : Spaced s t → Spaced (c :: s) (c :: t)
  | insert {c : CodeUnit} {s t : JsStr} : isWhiteSpace c = true → Spaced s t → Spaced s (c :: t)

omit [Runtime] in
theorem Spaced.filter {s t : JsStr} (spaced : Spaced s t) :
    t.filter (fun c => !isWhiteSpace c) = s.filter (fun c => !isWhiteSpace c) := by
  induction spaced with
  | nil => rfl
  | keep c _ ih => rw [List.filter_cons, List.filter_cons, ih]
  | insert blank _ ih => rw [List.filter_cons_of_neg (by simp [blank]), ih]

omit [Runtime] in
theorem spaced_refl (s : JsStr) : Spaced s s := by
  induction s with
  | nil => exact .nil
  | cons c s ih => exact .keep c ih

/-- What was parsed is what was packed: its members in the order of `Object.keys`, and with one zero. -/
def GivesBack (parsed : Parsed) (vaid : Members) (chain : List Members) : Prop :=
  JsValue.obj parsed.vaid = (JsValue.obj vaid).ordered.zeroed ∧
    parsed.chain.map JsValue.obj = chain.map (fun d => (JsValue.obj d).ordered.zeroed)

/-- The token gives back what was packed, also with white space inserted after its prefix. -/
def RoundTrips (vaid : Members) (chain : List Members) : Prop :=
  ∃ token, packEnvelope (.obj vaid) (chain.map .obj) = .ok (envelopePrefix ++ token) ∧
    ∀ spaced, Spaced token spaced → ∃ parsed,
      parseEnvelope (envelopePrefix ++ spaced) = .ok parsed ∧ GivesBack parsed vaid chain

omit [Runtime] in
theorem givesBack_iff (vaid : Members) (chain : List Members) (bare : Bool) :
    GivesBack ⟨rewritten vaid, chain.map rewritten, bare⟩ vaid chain ↔
      (JsValue.obj vaid).IsFinite ∧ ∀ d ∈ chain, (JsValue.obj d).IsFinite := by
  have each (d : Members) : JsValue.obj (rewritten d) = (JsValue.obj d).ordered.zeroed ↔ (JsValue.obj d).IsFinite := by
    rw [← written_ordered, written_eq_zeroed_iff, isFinite_ordered]
  rw [GivesBack, each, List.map_map, List.map_inj_left]
  exact and_congr_right (fun _ => forall₂_congr (fun d _ => each d))

theorem roundTrips_iff {vaid : Members} {chain : List Members} (json : (JsValue.obj vaid).IsJson)
    (jsons : ∀ d ∈ chain, (JsValue.obj d).IsJson) : RoundTrips vaid chain ↔
      (JsValue.obj vaid).IsFinite ∧ ∀ d ∈ chain, (JsValue.obj d).IsFinite := by
  rw [← givesBack_iff vaid chain false]
  constructor
  · rintro ⟨token, packed, reads⟩
    obtain rfl : toBase64Url (encode (jsonText (envelopeBody (.obj vaid) (chain.map .obj)))) = token :=
      List.append_cancel_left (Except.ok.inj packed)
    obtain ⟨parsed, read, back⟩ := reads _ (spaced_refl _)
    rw [parseEnvelope_token json jsons (token_solid _)] at read
    cases read
    exact back
  · intro back
    refine ⟨_, rfl, fun spaced inserted => ⟨_, parseEnvelope_token json jsons ?_, back⟩⟩
    rw [inserted.filter, token_solid]

def headlineFor (input : JsStr) (anchor : Anchor) (now : Int) : Throws Headline :=
  (verifyEnvelope input anchor now).map VerifyResult.headline

def presentedHeadline (parsed : Parsed) (anchor : Anchor) (now : Int) : Throws Headline :=
  (verifyParsed parsed anchor now).map VerifyResult.headline

theorem presentedHeadline_bare (vaid : Members) (chain : List Members) (anchor : Anchor) (now : Int) :
    presentedHeadline ⟨vaid, chain, true⟩ anchor now = presentedHeadline ⟨vaid, chain, false⟩ anchor now := by
  have same (key : Bytes) : authorityFindings key ⟨vaid, chain, true⟩ now =
      authorityFindings key ⟨vaid, chain, false⟩ now := rfl
  unfold presentedHeadline verifyParsed
  dsimp only
  cases (Members.get vaid "kernel_key_thumbprint").asStr.bind (fun tp => anchor.lookup tp) with
  | none => rfl
  | some entry =>
    dsimp only
    rw [same]
    cases provenance entry.jwk with
    | error e => rfl
    | ok origin =>
      cases authorityFindings entry.key ⟨vaid, chain, false⟩ now with
      | error e => rfl
      | ok found =>
        obtain ⟨authority, goOn⟩ := found
        cases goOn with
        | false => rfl
        | true =>
          cases expiryFinding vaid now with
          | error e => rfl
          | ok expiry => cases issuerFinding vaid <;> rfl

omit [Runtime] in
theorem headline_assemble (findings : List Finding) (parsed : Parsed) :
    (assemble findings parsed).headline ≠ .malformed := by
  have derived : (assemble findings parsed).headline = (headlineOf (assemble findings parsed).findings).1 := rfl
  rw [derived]
  unfold headlineOf
  dsimp only
  split
  · split <;> exact nofun
  · split <;> exact nofun

theorem of_verifyParsed_assemble {parsed : Parsed} {anchor : Anchor} {now : Int} {result : VerifyResult}
    (returned : verifyParsed parsed anchor now = .ok result) : ∃ findings, result = assemble findings parsed := by
  unfold verifyParsed at returned
  dsimp only at returned
  split at returned
  · cases returned
    exact ⟨_, rfl⟩
  · obtain ⟨origin, _, returned⟩ := Raising.of_bind_eq_ok returned
    obtain ⟨⟨authority, goOn⟩, _, returned⟩ := Raising.of_bind_eq_ok returned
    cases goOn with
    | false =>
      cases returned
      exact ⟨_, rfl⟩
    | true =>
      obtain ⟨expiry, _, returned⟩ := Raising.of_bind_eq_ok returned
      obtain ⟨issuer, _, returned⟩ := Raising.of_bind_eq_ok returned
      cases returned
      exact ⟨_, rfl⟩

theorem presentedHeadline_ne (parsed : Parsed) (anchor : Anchor) (now : Int) :
    presentedHeadline parsed anchor now ≠ .ok .malformed := by
  intro malformed
  cases returned : verifyParsed parsed anchor now with
  | error e =>
    rw [presentedHeadline, returned] at malformed
    cases malformed
  | ok result =>
    obtain ⟨findings, rfl⟩ := of_verifyParsed_assemble returned
    rw [presentedHeadline, returned] at malformed
    exact headline_assemble findings parsed (Except.ok.inj malformed)

/-- The bare document, the envelope and the token get one headline. -/
def SameHeadlines (vaid : Members) (anchor : Anchor) (now : Int) : Prop :=
  headlineFor (jsonText (.obj vaid)) anchor now = headlineFor (jsonText (envelopeBody (.obj vaid) [])) anchor now ∧
    ∀ token, packEnvelope (.obj vaid) [] = .ok token →
      headlineFor token anchor now = headlineFor (jsonText (envelopeBody (.obj vaid) [])) anchor now

def ReadsBare (vaid : Members) : Prop := vaid.lookup (js "v") = none ∧ vaid.lookup (js "vaid") = none

/-- The document has a member that an envelope has, and its text is itself a readable envelope. -/
def HoldsEnvelope (vaid : Members) : Prop :=
  ¬ ReadsBare vaid ∧ ∃ inner, normalise (.obj (rewritten vaid)) = .ok inner

omit [Runtime] in
theorem lookup_rewritten (vaid : Members) (name : JsStr) :
    (rewritten vaid).lookup name = none ↔ vaid.lookup name = none := by
  have names : ((rewritten vaid).map Prod.fst).Perm (vaid.map Prod.fst) := by
    have kept : (rewritten vaid).map Prod.fst = (ownOrder (orderedMembers vaid)).map Prod.fst := by
      rw [rewritten, writtenMembers_eq, List.map_map]
      rfl
    rw [kept, show vaid.map Prod.fst = (orderedMembers vaid).map Prod.fst by
      rw [orderedMembers_eq, List.map_map]
      rfl]
    exact (ownOrder_perm _).map Prod.fst
  have absent (members : Members) : members.lookup name = none ↔ name ∉ members.map Prod.fst := by
    rw [List.lookup_eq_none_iff]
    constructor
    · intro others member
      obtain ⟨m, listed, rfl⟩ := List.mem_map.mp member
      simpa using others m listed
    · intro fresh m listed
      simpa using fun same : name = m.1 => fresh (same ▸ List.mem_map_of_mem listed)
  rw [absent, absent, names.mem_iff]

theorem normalise_bare {vaid : Members} (bare : ReadsBare vaid) :
    normalise (.obj (rewritten vaid)) = .ok ⟨rewritten vaid, [], true⟩ := by
  have v := (lookup_rewritten vaid (js "v")).mpr bare.1
  have inner := (lookup_rewritten vaid (js "vaid")).mpr bare.2
  simp only [normalise, Members.get, v, inner]
  rfl

section Headlines

variable {vaid : Members} (json : (JsValue.obj vaid).IsJson) (anchor : Anchor) (now : Int)

include json

theorem headlineFor_bare : headlineFor (jsonText (.obj vaid)) anchor now =
    (normalise (.obj (rewritten vaid))).toOption.elim (.ok .malformed)
      (fun inner => presentedHeadline inner anchor now) := by
  rw [headlineFor, verifyEnvelope, parseEnvelope_bare json]
  cases normalise (.obj (rewritten vaid)) <;> rfl

theorem headlineFor_body : headlineFor (jsonText (envelopeBody (.obj vaid) [])) anchor now =
    presentedHeadline ⟨rewritten vaid, [], false⟩ anchor now := by
  have none_ : ∀ d ∈ ([] : List Members), (JsValue.obj d).IsJson := by simp
  have read := parseEnvelope_body json none_
  rw [List.map_nil, List.map_nil] at read
  rw [headlineFor, verifyEnvelope, read]
  rfl

theorem headlineFor_token {token : JsStr} (packed : packEnvelope (.obj vaid) [] = .ok token) :
    headlineFor token anchor now = presentedHeadline ⟨rewritten vaid, [], false⟩ anchor now := by
  have none_ : ∀ d ∈ ([] : List Members), (JsValue.obj d).IsJson := by simp
  have read := parseEnvelope_token json none_ (token_solid _)
  rw [List.map_nil, List.map_nil] at read
  cases packed
  rw [headlineFor, verifyEnvelope, read]
  rfl

end Headlines

theorem sameHeadlines_of_readsBare {vaid : Members} (json : (JsValue.obj vaid).IsJson)
    (reads : ReadsBare vaid) (anchor : Anchor) (now : Int) : SameHeadlines vaid anchor now := by
  rw [SameHeadlines, headlineFor_body json, headlineFor_bare json, normalise_bare reads]
  exact ⟨presentedHeadline_bare _ _ _ _, fun token packed => headlineFor_token json anchor now packed⟩

theorem readsBare_of_sameHeadlines {vaid : Members} (json : (JsValue.obj vaid).IsJson)
    (same : ∀ anchor now, SameHeadlines vaid anchor now) : ReadsBare vaid ∨ HoldsEnvelope vaid := by
  refine Classical.or_iff_not_imp_left.mpr (fun named => ⟨named, ?_⟩)
  have alike := (same [] 0).1
  rw [headlineFor_body json, headlineFor_bare json] at alike
  cases read : normalise (.obj (rewritten vaid)) with
  | error message =>
    rw [read] at alike
    exact absurd alike.symm (presentedHeadline_ne _ _ _)
  | ok inner => exact ⟨inner, rfl⟩

def HasNoParent (vaid : Members) : Prop := vaid.get "parent_vaid" = .null ∨ vaid.get "parent_vaid" = .undefined

omit [Runtime] in
theorem isJson_of_accepted {text : JsStr} {vaid : Members} (accepted : parseVaidDocument text = some vaid) :
    (JsValue.obj vaid).IsJson := by
  unfold parseVaidDocument at accepted
  split at accepted
  · cases accepted
  · split at accepted
    · rename_i parsed
      split at accepted
      · cases accepted
        exact isJson_of_jsonParse parsed
      · cases accepted
    · cases accepted

def SpellingsAgree (vaid : Members) (chain : List Members) : Prop :=
  RoundTrips vaid chain ∧ (HasNoParent vaid → ∀ anchor now, SameHeadlines vaid anchor now)

/-- The three spellings of an accepted document mean the same if its numbers, and those of its chain,
are finite, and, where it has no parent, it has no member that an envelope has. They mean the same
only if so, but for a document that is itself a readable envelope. -/
theorem spellings_agree {text : JsStr} {vaid : Members} {chain : List Members}
    (accepted : parseVaidDocument text = some vaid)
    (presented : ∀ d ∈ chain, ∃ text, parseVaidDocument text = some d) :
    (((JsValue.obj vaid).IsFinite ∧ ∀ d ∈ chain, (JsValue.obj d).IsFinite) ∧
        (HasNoParent vaid → ReadsBare vaid) → SpellingsAgree vaid chain) ∧
    (SpellingsAgree vaid chain →
      ((JsValue.obj vaid).IsFinite ∧ ∀ d ∈ chain, (JsValue.obj d).IsFinite) ∧
        (HasNoParent vaid → ReadsBare vaid ∨ HoldsEnvelope vaid)) := by
  have json := isJson_of_accepted accepted
  have jsons : ∀ d ∈ chain, (JsValue.obj d).IsJson := by
    intro d member
    obtain ⟨_, read⟩ := presented d member
    exact isJson_of_accepted read
  rw [SpellingsAgree, roundTrips_iff json jsons]
  exact ⟨fun ⟨finite, bare⟩ => ⟨finite, fun root => sameHeadlines_of_readsBare json (bare root)⟩,
    fun ⟨finite, same⟩ => ⟨finite, fun root => readsBare_of_sameHeadlines json (same root)⟩⟩

end Verifier

section Example

local instance spellingRuntime : Runtime := Runtime.toy

theorem spellings_agree_futureRoot : ∃ vaid, parseVaidDocument futureRoot = some vaid ∧
    SpellingsAgree vaid [vaid] := by
  have accepts : (parseVaidDocument futureRoot).any (fun d => decide (JsValue.obj d).IsFinite &&
      ((d.lookup (js "v")).isNone && (d.lookup (js "vaid")).isNone)) = true := by decide +kernel
  obtain ⟨vaid, accepted, plain⟩ := (Option.any_eq_true _ _).mp accepts
  simp only [Bool.and_eq_true, decide_eq_true_eq, Option.isNone_iff_eq_none] at plain
  obtain ⟨finite, bare⟩ := plain
  have same : ∀ d ∈ [vaid], d = vaid := fun d member => List.mem_singleton.mp member
  exact ⟨vaid, accepted, (spellings_agree accepted
    (fun d member => ⟨futureRoot, same d member ▸ accepted⟩)).1
      ⟨⟨finite, fun d member => same d member ▸ finite⟩, fun _ => bare⟩⟩

/-- The text of the root with the member before the others. -/
def versionedRoot : JsStr := js "\x7b\"v\":2," ++ futureRoot.tail

/-- Under every anchor it is malformed as a bare document, and not as an envelope. -/
theorem versionedRoot_misread : ∃ vaid, parseVaidDocument versionedRoot = some vaid ∧ HasNoParent vaid ∧
    ∀ anchor now, headlineFor (jsonText (.obj vaid)) anchor now = .ok .malformed ∧
      headlineFor (jsonText (envelopeBody (.obj vaid) [])) anchor now ≠ .ok .malformed := by
  have reads : (parseVaidDocument versionedRoot).any (fun d => (d.get "parent_vaid").strictEq .null &&
      !(normalise (.obj (rewritten d))).isOk) = true := by decide +kernel
  obtain ⟨vaid, accepted, reads⟩ := (Option.any_eq_true _ _).mp reads
  have json := isJson_of_accepted accepted
  rw [Bool.and_eq_true] at reads
  refine ⟨vaid, accepted, .inl ?_, fun anchor now => ⟨?_, ?_⟩⟩
  · cases parent : vaid.get "parent_vaid" with
    | null => rfl
    | _ =>
      rw [parent] at reads
      cases reads.1
  · rw [headlineFor_bare json]
    cases read : normalise (.obj (rewritten vaid)) with
    | error message => rfl
    | ok inner =>
      rw [read] at reads
      cases reads.2
  · rw [headlineFor_body json]
    exact presentedHeadline_ne _ _ _

end Example

end VaidSuite.TypeScript
