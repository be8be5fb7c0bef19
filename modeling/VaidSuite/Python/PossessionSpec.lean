import VaidSuite.Python.IssuerSpec
import VaidSuite.Python.Possession

/-! What an SVID possession proof covers, and what verifying one has checked. -/
namespace VaidSuite.Python

open JsonText (Tree Spelled NumberSpelled WellSpelledItems Ascii ascii_cons ascii_append ascii_nil)

theorem natText_spelled (n : Nat) : NumberSpelled (JsonText.natText n) := by
  have text : JsonText.Numeral.text ⟨false, JsonText.natText n, [], none⟩ = JsonText.natText n := by
    simp [JsonText.Numeral.text, JsonText.Numeral.unsignedText, JsonText.Numeral.fractionText,
      JsonText.Numeral.exponentText]
  refine text ▸ JsonText.Numeral.numberSpelled ⟨?_, by simp, by simp⟩
  have digits := JsonText.natText_digits n
  cases spelled : JsonText.natText n with
  | nil => exact absurd spelled (JsonText.natText_ne_nil n)
  | cons c ds =>
    rw [spelled] at digits
    refine ⟨c, ds, rfl, digits c List.mem_cons_self, fun zero => ?_,
      fun d member => digits d (List.mem_cons_of_mem _ member)⟩
    by_cases h : n = 0
    · subst h
      exact (List.cons.inj (spelled.symm.trans rfl)).2
    · obtain ⟨c', ds', leads, other⟩ := JsonText.natText_leads h
      cases spelled.symm.trans leads
      exact absurd zero other

theorem asciiText_spelled (s : PyStr) : Spelled (asciiText s) :=
  JsonText.spelled_asciiSpelling (by simp)

/-- The tree of a payload. Its members are in the order of their names. -/
def payloadTree (operatingPublicKeyDer : Bytes) (nonce issuedAt : PyStr) : Tree :=
  .obj [(asciiText (py "issuedAt"), .str (asciiText issuedAt)),
    (asciiText (py "nonce"), .str (asciiText nonce)),
    (asciiText (py "operatingPublicKeyDer"),
      .arr (operatingPublicKeyDer.map (fun b => .num (JsonText.natText b.toNat))))]

theorem payloadTree_wellSpelled (operatingPublicKeyDer : Bytes) (nonce issuedAt : PyStr) :
    (payloadTree operatingPublicKeyDer nonce issuedAt).WellSpelled := by
  have numbers : ∀ key : Bytes,
      WellSpelledItems (key.map (fun b => .num (JsonText.natText b.toNat))) := by
    intro key
    induction key with
    | nil => trivial
    | cons b key ih => exact ⟨natText_spelled _, ih⟩
  exact ⟨asciiText_spelled _, asciiText_spelled _, asciiText_spelled _, asciiText_spelled _,
    asciiText_spelled _, numbers _, trivial⟩

section

variable [Libraries]

theorem treesOf_ofBytes (key : Bytes) : treesOf (key.map (fun b => .ofNat b.toNat)) =
    key.map (fun b => .num (JsonText.natText b.toNat)) := by
  induction key with
  | nil => rfl
  | cons b key ih =>
    rw [List.map_cons, treesOf, ih]
    rfl

theorem treeOf_payload (operatingPublicKeyDer : Bytes) (nonce issuedAt : PyStr) :
    treeOf (.obj (buildSvidPossessionPayload operatingPublicKeyDer nonce issuedAt)) =
      payloadTree operatingPublicKeyDer nonce issuedAt := by
  have first : ¬ py "operatingPublicKeyDer" ≤ py "nonce" ∧ ¬ py "operatingPublicKeyDer" ≤ py "issuedAt" ∧
      ¬ py "nonce" ≤ py "issuedAt" := by decide
  simp only [buildSvidPossessionPayload, treeOf, memberTrees, Json.ofBytes, treesOf_ofBytes,
    List.insertionSort, List.foldr, List.orderedInsert, first, if_false, List.map_cons, List.map_nil]
  rfl

omit [Libraries] in
theorem encode_ascii {t : JsonText.Text} (ascii : Ascii t) :
    encode (t.map (Fin.ofNat 0x110000)) = .ok (t.map UInt8.ofNat) := by
  have each : ∀ c < 0x80, (CodePoint.toChar? (Fin.ofNat 0x110000 c)).map String.utf8EncodeChar =
      some [UInt8.ofNat c] := by decide
  have decodes : ∃ chars, (t.map (Fin.ofNat 0x110000)).mapM CodePoint.toChar? = some chars ∧
      chars.flatMap String.utf8EncodeChar = t.map UInt8.ofNat := by
    induction t with
    | nil => exact ⟨[], rfl, rfl⟩
    | cons c t ih =>
      obtain ⟨chars, rest, bytes⟩ := ih (fun d member => ascii d (List.mem_cons_of_mem _ member))
      obtain ⟨char, decoded, encoded⟩ := Option.map_eq_some_iff.mp (each c (ascii c List.mem_cons_self))
      refine ⟨char :: chars, ?_, ?_⟩
      · rw [List.map_cons, List.mapM_cons, decoded, rest]
        rfl
      · rw [List.flatMap_cons, encoded, bytes]
        rfl
  obtain ⟨chars, decoded, bytes⟩ := decodes
  rw [encode, decoded, ← bytes]

omit [Libraries] in
theorem payloadTree_ascii (operatingPublicKeyDer : Bytes) (nonce issuedAt : PyStr) :
    Ascii (payloadTree operatingPublicKeyDer nonce issuedAt).text := by
  have strings : ∀ s : PyStr, Ascii (asciiText s) := fun s => JsonText.asciiSpelling_ascii (by simp)
  have digits : ∀ n, Ascii (JsonText.natText n) := fun n c member =>
    JsonText.Respelling.isDigit_ascii c (JsonText.natText_digits n c member)
  have more : ∀ key : Bytes,
      Ascii (JsonText.moreItemsText (key.map (fun b => .num (JsonText.natText b.toNat)))) := by
    intro key
    induction key with
    | nil => simp [JsonText.moreItemsText]
    | cons b key ih => simpa [JsonText.moreItemsText, Tree.text, digits, JsonText.comma] using ih
  have numbers : ∀ key : Bytes,
      Ascii (JsonText.itemsText (key.map (fun b => .num (JsonText.natText b.toNat)))) := by
    intro key
    cases key with
    | nil => simp [JsonText.itemsText]
    | cons b key => simp [JsonText.itemsText, Tree.text, digits, more]
  simp only [payloadTree, Tree.text, JsonText.membersText, JsonText.moreMembersText, ascii_cons,
    ascii_append, ascii_nil, strings, numbers, and_true, true_and]
  decide

theorem canonicalSvidPossessionBytes_eq (operatingPublicKeyDer : Bytes) (nonce issuedAt : PyStr) :
    canonicalSvidPossessionBytes (buildSvidPossessionPayload operatingPublicKeyDer nonce issuedAt) =
      .ok ((payloadTree operatingPublicKeyDer nonce issuedAt).text.map UInt8.ofNat) := by
  rw [canonicalSvidPossessionBytes, jsonDumps, treeOf_payload, encode_ascii (payloadTree_ascii _ _ _)]

omit [Libraries] in
def utf16Units (s : PyStr) : JsonText.Text := JsonText.respell JsonText.utf16Code (s.map Fin.val)

omit [Libraries] in
theorem asciiText_eq_iff (s t : PyStr) : asciiText s = asciiText t ↔ utf16Units s = utf16Units t := by
  have points : ∀ u : PyStr, ∀ c ∈ u.map Fin.val, c < 0x110000 := by simp
  constructor
  · intro same
    have denoted := congrArg JsonText.unescape same
    rwa [asciiText, asciiText, JsonText.unescape_asciiSpelling (points s),
      JsonText.unescape_asciiSpelling (points t)] at denoted
  · intro same
    rw [asciiText, asciiText, ← JsonText.asciiSpelling_respell (points s),
      ← JsonText.asciiSpelling_respell (points t)]
    exact congrArg JsonText.asciiSpelling same

omit [Libraries] in
theorem utf16Units_injective {s t : PyStr} (textLeft : Encodable s) (textRight : Encodable t)
    (same : utf16Units s = utf16Units t) : s = t := by
  have valid : ∀ {u : PyStr}, Encodable u → ∀ c ∈ u.map Fin.val, c.isValidChar := by
    intro u text c member
    obtain ⟨point, inside, rfl⟩ := List.mem_map.mp member
    have scalar := text point inside
    rw [CodePoint.toChar?] at scalar
    by_contra lone
    rw [dif_neg lone] at scalar
    cases scalar
  exact List.map_injective_iff.mpr Fin.val_injective
    (JsonText.respell_utf16_injective (valid textLeft) (valid textRight) same)

/-- What the SVID key signs is the operating key, and the UTF-16 units of the nonce and of the time. -/
theorem possession_bytes_eq_iff (key key' : Bytes) (nonce nonce' issuedAt issuedAt' : PyStr) :
    canonicalSvidPossessionBytes (buildSvidPossessionPayload key nonce issuedAt) =
        canonicalSvidPossessionBytes (buildSvidPossessionPayload key' nonce' issuedAt') ↔
      key = key' ∧ utf16Units nonce = utf16Units nonce' ∧ utf16Units issuedAt = utf16Units issuedAt' := by
  rw [canonicalSvidPossessionBytes_eq, canonicalSvidPossessionBytes_eq, ← asciiText_eq_iff,
    ← asciiText_eq_iff]
  constructor
  · intro same
    have read : ∀ k n i, ((payloadTree k n i).text.map UInt8.ofNat).map UInt8.toNat =
        (payloadTree k n i).text := by
      intro k n i
      rw [List.map_map]
      refine (List.map_congr_left (fun c member => ?_)).trans (List.map_id _)
      exact UInt8.toNat_ofNat_of_lt' (Nat.lt_of_lt_of_le (payloadTree_ascii k n i c member) (by decide))
    have texts := congrArg (List.map UInt8.toNat) (Except.ok.inj same)
    rw [read, read] at texts
    have trees := JsonText.text_injective (payloadTree_wellSpelled _ _ _) (payloadTree_wellSpelled _ _ _)
      texts
    simp only [payloadTree, Tree.obj.injEq, List.cons.injEq, Prod.mk.injEq, Tree.str.injEq,
      Tree.arr.injEq, true_and, and_true] at trees
    obtain ⟨issued, nonced, keys⟩ := trees
    refine ⟨List.map_injective_iff.mpr (fun b b' digits => ?_) keys, nonced, issued⟩
    have values := congrArg JsonText.natOf (Tree.num.inj digits)
    rw [JsonText.natOf_natText, JsonText.natOf_natText] at values
    exact UInt8.toNat_inj.mp values
  · rintro ⟨rfl, nonced, issued⟩
    rw [payloadTree, payloadTree, nonced, issued]

end

variable [Libraries] [SvidLibraries]

/-- A fresh proof that the holder of the leaf's key registers this operating key. -/
structure ProvesHolder (now : UtcDatetime) (leaf : Certificate) (operatingPublicKeyDer : Bytes)
    (possession : SvidPossession) (freshnessSecs : Nat) : Prop where
  fresh : ∃ issued, Libraries.strptime possession.issuedAt = some issued ∧
    ((now.val : Int) - issued.val).natAbs ≤ freshnessSecs * 1000000
  signed : ∃ message, canonicalSvidPossessionBytes (buildSvidPossessionPayload operatingPublicKeyDer
      possession.nonce possession.issuedAt) = .ok message ∧
    verifyWithLeafKey leaf message possession.signature = .ok (some ())

theorem run_verifySvidPossession_iff (now : UtcDatetime) (leaf : Certificate) (key : Bytes)
    (possession : SvidPossession) (freshnessSecs : Nat) (u : PUnit) (consumed consumed' : Finset PyStr) :
    (verifySvidPossession now leaf key possession freshnessSecs).run consumed = (.ok u, consumed') ↔
      ProvesHolder now leaf key possession freshnessSecs ∧ possession.nonce ∉ consumed ∧
        insert possession.nonce consumed = consumed' := by
  simp only [verifySvidPossession, Fallible.run_bind_iff, Fallible.run_required_iff,
    Fallible.run_refuseIf_iff, Fallible.run_read_iff, Fallible.run_ofExcept_iff,
    Fallible.run_atomically, raising_eq_ok_iff]
  constructor
  · rintro ⟨issued, _, ⟨read, rfl⟩, _, _, ⟨fresh, rfl⟩, _, _, ⟨rfl, rfl⟩, _, _, ⟨unspent, rfl⟩, _, _, spent,
      message, _, ⟨signed, rfl⟩, verified, _, ⟨verifies, rfl⟩, valid, rfl⟩
    cases spent
    cases verified with
    | none => exact absurd rfl valid
    | some _ => exact ⟨⟨⟨issued, read, by omega⟩, message, signed, verifies⟩, by simpa using unspent, rfl⟩
  · rintro ⟨⟨⟨issued, read, fresh⟩, message, signed, verifies⟩, unspent, rfl⟩
    exact ⟨issued, consumed, ⟨read, rfl⟩, ⟨⟩, consumed, ⟨by omega, rfl⟩, _, consumed, ⟨rfl, rfl⟩, ⟨⟩,
      consumed, ⟨by simpa using unspent, rfl⟩, ⟨⟩, _, rfl, message, _, ⟨signed, rfl⟩, some (), _,
      ⟨verifies, rfl⟩, by simp, rfl⟩

end VaidSuite.Python
