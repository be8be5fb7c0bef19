import VaidSuite.Base64
import VaidSuite.Python.Canonical
import VaidSuite.Python.Issuers

/-! A configuration of raw keys loads, the same way by every loader: the base64url of a key
decodes to that key, and distinct keys are filed under distinct thumbprints. -/
namespace VaidSuite.Python

def sextetPoint (n : Nat) : CodePoint := CodePoint.ofChar (sextet n)

theorem b64urlValue_sextetPoint {n : Nat} (small : n < 64) : b64urlValue (sextetPoint n) = some n := by
  have each : ∀ i : Fin 64, b64urlValue (sextetPoint i.val) = some i.val := by decide +kernel
  exact each ⟨n, small⟩

theorem of_b64urlValue {c : CodePoint} {n : Nat} (value : b64urlValue c = some n) :
    c = sextetPoint n ∧ n < 64 := by
  obtain ⟨inRange, same, _⟩ := List.findIdx?_eq_some_iff_getElem.mp value
  rw [List.length_map] at inRange
  have small : n < 64 := inRange
  refine ⟨?_, small⟩
  rw [List.getElem_map, beq_iff_eq] at same
  rw [sextetPoint, sextet, Nat.mod_eq_of_lt small, List.getD_eq_getElem?_getD,
    List.getElem?_eq_getElem inRange, Option.getD_some, same]

theorem b64url_eq (data : Bytes) : b64url data = (sextets data).map sextetPoint := by
  rw [b64url, base64Url_eq, List.map_map]
  rfl

theorem mapM_sextetPoint {xs : List Nat} (small : ∀ n ∈ xs, n < 64) :
    (xs.map sextetPoint).mapM b64urlValue = some xs := by
  induction xs with
  | nil => rfl
  | cons x xs ih =>
    rw [List.forall_mem_cons] at small
    simp [List.mapM_cons, b64urlValue_sextetPoint small.1, ih small.2]

theorem of_mapM_b64urlValue {value : PyStr} {xs : List Nat} (read : value.mapM b64urlValue = some xs) :
    value = xs.map sextetPoint ∧ ∀ n ∈ xs, n < 64 := by
  induction value generalizing xs with
  | nil =>
    cases read
    simp
  | cons c value ih =>
    rw [List.mapM_cons] at read
    obtain ⟨x, first, read⟩ := Option.bind_eq_some_iff.mp read
    obtain ⟨xs, rest, read⟩ := Option.bind_eq_some_iff.mp read
    cases read
    obtain ⟨rfl, small⟩ := of_b64urlValue first
    obtain ⟨rfl, smalls⟩ := ih rest
    exact ⟨rfl, List.forall_mem_cons.mpr ⟨small, smalls⟩⟩

theorem b64url_injective : Function.Injective b64url := by
  intro data data' same
  have read := mapM_sextetPoint (sextets_lt data)
  rw [← b64url_eq, same, b64url_eq, mapM_sextetPoint (sextets_lt data'), Option.some.injEq] at read
  exact sextets_injective read.symm

theorem length_b64url (data : Bytes) : (b64url data).length = (4 * data.length + 2) / 3 := by
  rw [b64url_eq, List.length_map, length_sextets]

theorem strictB64urlDecode_b64url {data : Bytes} (nonempty : data ≠ []) :
    strictB64urlDecode (b64url data) = .ok data := by
  have read := mapM_sextetPoint (sextets_lt data)
  rw [← b64url_eq] at read
  have length : (b64url data).length % 4 ≠ 1 := by
    rw [length_b64url]
    omega
  cases taken : sextets data with
  | nil => exact absurd (sextets_injective (taken.trans sextets.eq_1.symm)) nonempty
  | cons x xs =>
    have decoded : decodeSextets (x :: xs) = data := by rw [← taken, decodeSextets_sextets]
    unfold strictB64urlDecode
    rw [taken] at read
    simp only [read, decoded, length, if_false, ne_eq, not_true_eq_false]

theorem strictB64urlDecode_iff {value : PyStr} {data : Bytes} :
    strictB64urlDecode value = .ok data ↔ data ≠ [] ∧ value = b64url data := by
  constructor
  · intro decoded
    unfold strictB64urlDecode at decoded
    split at decoded
    · cases decoded
    · cases decoded
    · rename_i xs nonempty read
      dsimp only at decoded
      split_ifs at decoded with length canonical
      rw [Except.ok.injEq] at decoded
      rw [not_not, decoded] at canonical
      refine ⟨?_, canonical.symm⟩
      rintro rfl
      rw [← canonical] at read
      exact nonempty (Option.some.inj read).symm
  · rintro ⟨nonempty, rfl⟩
    exact strictB64urlDecode_b64url nonempty

variable [Libraries]

/-- Raw kernel keys, each listed once, with trust domains that are text. -/
structure Configured (issuers : List (PyStr × Bytes)) : Prop where
  keys : ∀ i ∈ issuers, i.2.length = ed25519PublicKeyBytes
  distinct : (issuers.map Prod.snd).Nodup
  text : ∀ i ∈ issuers, Encodable i.1

/-- No two of the configured keys have one thumbprint. -/
def CollisionFree (issuers : List (PyStr × Bytes)) : Prop :=
  ∀ i ∈ issuers, ∀ j ∈ issuers, kernelKeyThumbprint i.2 = kernelKeyThumbprint j.2 → i.2 = j.2

/-- The maps that a list of raw keys makes, filed under these thumbprints. -/
def fileIssuer (thumbprint : PyStr × Bytes → PyStr)
    (filed : TrustedIssuerMap × List (PyStr × List PyStr)) (i : PyStr × Bytes) :
    TrustedIssuerMap × List (PyStr × List PyStr) :=
  (InsertionMap.set (thumbprint i) ⟨i.2, i.1⟩ filed.1,
    InsertionMap.set (thumbprint i) ((filed.2.lookup (thumbprint i)).getD [] ++ [i.1]) filed.2)

omit [Libraries] in
/-- An entry that pairs a trust domain with a kernel key. -/
structure IsIssuer (entry : PyValue) (i : PyStr × Bytes) : Prop where
  length : i.2.length = ed25519PublicKeyBytes
  members : ∃ members, entry = .obj members ∧ Dict.get members "kernelPublicKey" = .str (b64url i.2) ∧
    Dict.get members "trustDomain" = .str i.1

omit [Libraries] in
theorem isIssuer_issuerEntry {i : PyStr × Bytes} (length : i.2.length = ed25519PublicKeyBytes) :
    IsIssuer (issuerEntry i) i :=
  ⟨length, _, rfl, rfl, rfl⟩

theorem addIssuer_ok (subject citation : PyStr) {thumbprint : PyStr × Bytes → PyStr} {entry : PyValue}
    {i : PyStr × Bytes} (pairs : IsIssuer entry i) (derives : kernelKeyThumbprint i.2 = .ok (thumbprint i))
    (filed : TrustedIssuerMap × List (PyStr × List PyStr)) :
    addIssuer subject citation filed entry = .ok (fileIssuer thumbprint filed i) := by
  obtain ⟨length, members, rfl, key, domain⟩ := pairs
  have nonempty : i.2 ≠ [] := by
    intro empty
    rw [empty] at length
    cases length
  simp only [addIssuer, key, domain, strictB64urlDecode_b64url nonempty, length, ne_eq, not_true_eq_false,
    if_false, derives, Raising.ok_bind]
  rfl

omit [Libraries] in
theorem fileIssuers_spec {thumbprint : PyStr × Bytes → PyStr} {issuers : List (PyStr × Bytes)}
    (distinct : (issuers.map thumbprint).Nodup) :
    (∀ e ∈ (issuers.foldl (fileIssuer thumbprint) ([], [])).1, ∃ i ∈ issuers, e.2 = ⟨i.2, i.1⟩) ∧
      ∀ e ∈ (issuers.foldl (fileIssuer thumbprint) ([], [])).2,
        e.1 ∈ issuers.map thumbprint ∧ e.2.length = 1 := by
  induction issuers using List.reverseRecOn with
  | nil => simp
  | append_singleton issuers i ih =>
    rw [List.map_append, List.map_singleton] at distinct
    obtain ⟨before, fresh⟩ := List.nodup_append.mp distinct |>.imp_right (fun h => h.2)
    obtain ⟨entries, domains⟩ := ih before
    rw [List.foldl_append, List.foldl_cons, List.foldl_nil]
    constructor
    · intro e member
      rcases InsertionMap.mem_set member with rfl | member
      · exact ⟨i, by simp, rfl⟩
      · obtain ⟨j, listed, same⟩ := entries e member
        exact ⟨j, List.mem_append_left _ listed, same⟩
    · intro e member
      rcases InsertionMap.mem_set member with rfl | member
      · have unlisted : (issuers.foldl (fileIssuer thumbprint) ([], [])).2.lookup (thumbprint i) =
            none := by
          cases found : (issuers.foldl (fileIssuer thumbprint) ([], [])).2.lookup (thumbprint i) with
          | none => rfl
          | some ds =>
            have listed := (domains _ (InsertionMap.mem_of_lookup found)).1
            exact absurd rfl (fresh _ listed _ (List.mem_singleton_self _))
        simp [unlisted]
      · obtain ⟨listed, single⟩ := domains e member
        exact ⟨by simp only [List.map_append, List.mem_append, listed, true_or], single⟩

omit [Libraries] in
theorem find_single {thumbprint : PyStr × Bytes → PyStr} {issuers : List (PyStr × Bytes)}
    (distinct : (issuers.map thumbprint).Nodup) :
    (issuers.foldl (fileIssuer thumbprint) ([], [])).2.find? (fun listed => 1 < listed.2.length) = none := by
  refine List.find?_eq_none.mpr (fun e member => ?_)
  simp [((fileIssuers_spec distinct).2 e member).2]

theorem loadIssuers_of_single {subject citation : PyStr} {items : List PyValue}
    {filed : TrustedIssuerMap × List (PyStr × List PyStr)}
    (files : items.foldlM (addIssuer subject citation) ([], []) = .ok filed)
    (single : filed.2.find? (fun listed => 1 < listed.2.length) = none) :
    loadIssuers subject citation items = .ok filed.1 := by
  rw [loadIssuers, files, Raising.ok_bind]
  simp only [single]
  rfl

theorem loadIssuers_ok {issuers : List (PyStr × Bytes)} (configured : Configured issuers)
    (documented : CanonicalizesDocumented) (collisionFree : CollisionFree issuers) :
    ∃ keys : TrustedIssuerMap,
      (∀ subject citation, loadIssuers subject citation (issuers.map issuerEntry) = .ok keys) ∧
      ∀ t issuer, keys.lookup t = some issuer → Encodable issuer.trustDomain := by
  choose thumbprint derives using fun i : PyStr × Bytes => kernelKeyThumbprint_ok documented i.2
  have distinct : (issuers.map thumbprint).Nodup := by
    have keysDistinct := configured.distinct
    rw [List.Nodup, List.pairwise_map] at keysDistinct ⊢
    refine keysDistinct.imp_of_mem (fun {i j} hi hj other same => other ?_)
    exact collisionFree i hi j hj (by rw [derives i, derives j, same])
  refine ⟨(issuers.foldl (fileIssuer thumbprint) ([], [])).1, fun subject citation => ?_, ?_⟩
  · have folded := Raising.foldlM_map_ok (f := issuerEntry) (s := ([], []))
      (fun filed i member => addIssuer_ok subject citation (isIssuer_issuerEntry (configured.keys i member))
        (derives i) filed)
    exact loadIssuers_of_single folded (find_single distinct)
  · intro t issuer found
    obtain ⟨i, listed, same⟩ := (fileIssuers_spec distinct).1 _ (InsertionMap.mem_of_lookup found)
    cases same
    exact configured.text i listed

end VaidSuite.Python
