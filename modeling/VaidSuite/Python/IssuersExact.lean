import VaidSuite.Python.IssuersSpec

/-! Exactly which lists of trusted issuers load, and what the loaded map resolves. -/
namespace VaidSuite.Python

/-! ### What the loop files -/

theorem lookup_fileIssuers (thumbprint : PyStr × Bytes → PyStr) (issuers : List (PyStr × Bytes)) (t : PyStr) :
    (issuers.foldl (fileIssuer thumbprint) ([], [])).1.lookup t =
      (issuers.filter (fun i => thumbprint i == t)).getLast?.map (fun i => ⟨i.2, i.1⟩) ∧
    ((issuers.foldl (fileIssuer thumbprint) ([], [])).2.lookup t).getD [] =
      (issuers.filter (fun i => thumbprint i == t)).map Prod.fst := by
  induction issuers using List.reverseRecOn with
  | nil => exact ⟨rfl, rfl⟩
  | append_singleton issuers i ih =>
    rw [List.foldl_append, List.foldl_cons, List.foldl_nil, List.filter_append]
    obtain ⟨entry, domains⟩ := ih
    generalize issuers.foldl (fileIssuer thumbprint) ([], []) = filed at entry domains ⊢
    unfold fileIssuer
    by_cases same : thumbprint i = t
    · subst same
      rw [InsertionMap.lookup_set_self, InsertionMap.lookup_set_self, List.filter_singleton, domains]
      simp
    · rw [InsertionMap.lookup_set_ne (Ne.symm same), InsertionMap.lookup_set_ne (Ne.symm same), entry, domains]
      simp [same]

theorem find_repeated {thumbprint : PyStr × Bytes → PyStr} {issuers : List (PyStr × Bytes)}
    (repeated : ¬ (issuers.map thumbprint).Nodup) :
    ((issuers.foldl (fileIssuer thumbprint) ([], [])).2.find? (fun listed => 1 < listed.2.length)).isSome =
      true := by
  rw [List.nodup_iff_count_le_one, not_forall] at repeated
  obtain ⟨t, twice⟩ := repeated
  have domains := (lookup_fileIssuers thumbprint issuers t).2
  have length : 1 < (((issuers.foldl (fileIssuer thumbprint) ([], [])).2.lookup t).getD []).length := by
    rw [domains, List.length_map, ← List.countP_eq_length_filter]
    rw [List.count, List.countP_map] at twice
    exact Nat.lt_of_not_le twice
  cases found : (issuers.foldl (fileIssuer thumbprint) ([], [])).2.lookup t with
  | none =>
    rw [found] at length
    cases length
  | some ds =>
    rw [found] at length
    exact List.find?_isSome.mpr ⟨_, InsertionMap.mem_of_lookup found, by simpa using length⟩

theorem lookup_fileIssuers_iff {thumbprint : PyStr × Bytes → PyStr} {issuers : List (PyStr × Bytes)}
    (distinct : (issuers.map thumbprint).Nodup) (t : PyStr) (issuer : TrustedIssuer) :
    (issuers.foldl (fileIssuer thumbprint) ([], [])).1.lookup t = some issuer ↔
      ∃ i ∈ issuers, thumbprint i = t ∧ issuer = ⟨i.2, i.1⟩ := by
  rw [(lookup_fileIssuers thumbprint issuers t).1, Option.map_eq_some_iff]
  constructor
  · rintro ⟨i, last, rfl⟩
    obtain ⟨listed, same⟩ := List.mem_filter.mp (List.mem_of_getLast? last)
    exact ⟨i, listed, eq_of_beq same, rfl⟩
  · rintro ⟨i, listed, rfl, rfl⟩
    have kept : i ∈ issuers.filter (fun j => thumbprint j == thumbprint i) :=
      List.mem_filter.mpr ⟨listed, beq_self_eq_true _⟩
    cases last : (issuers.filter (fun j => thumbprint j == thumbprint i)).getLast? with
    | none =>
      rw [List.getLast?_eq_none_iff.mp last] at kept
      cases kept
    | some j =>
      obtain ⟨alsoListed, same⟩ := List.mem_filter.mp (List.mem_of_getLast? last)
      rw [List.inj_on_of_nodup_map distinct alsoListed listed (eq_of_beq same)]
      exact ⟨i, rfl, rfl⟩

section Loading

variable [Libraries]

theorem addIssuer_cases (subject citation : PyStr) (entry : PyValue) : (∃ i, IsIssuer entry i) ∨
    (¬ ∃ i, IsIssuer entry i) ∧ ∀ filed, ∃ message,
      addIssuer subject citation filed entry = .error (.trustedIssuersConfig message) := by
  by_cases pairs : ∃ i, IsIssuer entry i
  · exact .inl pairs
  · refine .inr ⟨pairs, fun filed => ?_⟩
    unfold addIssuer
    split
    · rename_i members
      split
      · rename_i raw key
        split
        · rename_i keyBytes decoded
          split
          · exact ⟨_, rfl⟩
          · rename_i length
            split
            · rename_i domain named
              rw [not_not] at length
              obtain ⟨_, rfl⟩ := strictB64urlDecode_iff.mp decoded
              exact absurd ⟨(domain, keyBytes), length, members, rfl, key, named⟩ pairs
            · exact ⟨_, rfl⟩
        · exact ⟨_, rfl⟩
      · exact ⟨_, rfl⟩
    · exact ⟨_, rfl⟩

theorem addIssuers_cases (subject citation : PyStr) {thumbprint : PyStr × Bytes → PyStr}
    (derives : ∀ i, kernelKeyThumbprint i.2 = .ok (thumbprint i)) (items : List PyValue)
    (filed : TrustedIssuerMap × List (PyStr × List PyStr)) :
    ((∀ e ∈ items, ∃ i, IsIssuer e i) ∧ ∃ issuers, List.Forall₂ IsIssuer items issuers ∧
      items.foldlM (addIssuer subject citation) filed = .ok (issuers.foldl (fileIssuer thumbprint) filed)) ∨
    (¬ ∀ e ∈ items, ∃ i, IsIssuer e i) ∧ ∃ message,
      items.foldlM (addIssuer subject citation) filed = .error (.trustedIssuersConfig message) := by
  induction items generalizing filed with
  | nil => exact .inl ⟨by simp, [], .nil, rfl⟩
  | cons e items ih =>
    rw [List.foldlM_cons]
    rcases addIssuer_cases subject citation e with ⟨i, pairs⟩ | ⟨other, refuses⟩
    · rw [addIssuer_ok subject citation pairs (derives i), Raising.ok_bind]
      rcases ih (fileIssuer thumbprint filed i) with ⟨named, issuers, all, ends⟩ | ⟨other, refuses⟩
      · exact .inl ⟨List.forall_mem_cons.mpr ⟨⟨i, pairs⟩, named⟩, i :: issuers, .cons pairs all, ends⟩
      · exact .inr ⟨fun all => other (fun e listed => all e (List.mem_cons_of_mem _ listed)), refuses⟩
    · obtain ⟨message, refused⟩ := refuses filed
      rw [refused]
      exact .inr ⟨fun all => other (all e List.mem_cons_self), message, rfl⟩

/-! ### Which lists load -/

omit [Libraries] in
theorem IsIssuer.unique {entry : PyValue} {i j : PyStr × Bytes} (first : IsIssuer entry i)
    (second : IsIssuer entry j) : i = j := by
  obtain ⟨_, members, rfl, key, domain⟩ := first
  obtain ⟨_, members', same, key', domain'⟩ := second
  cases same
  rw [domain, Json.str.injEq] at domain'
  rw [key, Json.str.injEq] at key'
  exact Prod.ext domain' (b64url_injective key')

/-- Entries that each name an issuer, no two of them by the same key. -/
def IsIssuerList (items : List PyValue) : Prop :=
  (∀ e ∈ items, ∃ i, IsIssuer e i) ∧
    items.Pairwise (fun e e' => ∀ i i', IsIssuer e i → IsIssuer e' i' → i.2 ≠ i'.2)

omit [Libraries] in
theorem mem_issuers_iff {items : List PyValue} {issuers : List (PyStr × Bytes)}
    (all : List.Forall₂ IsIssuer items issuers) (i : PyStr × Bytes) :
    i ∈ issuers ↔ ∃ e ∈ items, IsIssuer e i := by
  induction all with
  | nil => simp
  | @cons e j items issuers pairs all ih =>
    have first : i = j ↔ IsIssuer e i := ⟨fun same => same ▸ pairs, fun other => other.unique pairs⟩
    rw [List.mem_cons, ih, List.exists_mem_cons_iff, first]

omit [Libraries] in
theorem pairwise_iff_nodup {items : List PyValue} {issuers : List (PyStr × Bytes)}
    (all : List.Forall₂ IsIssuer items issuers) :
    items.Pairwise (fun e e' => ∀ i i', IsIssuer e i → IsIssuer e' i' → i.2 ≠ i'.2) ↔
      (issuers.map Prod.snd).Nodup := by
  induction all with
  | nil => simp
  | @cons e i items issuers pairs all ih =>
    rw [List.pairwise_cons, List.map_cons, List.nodup_cons, ih]
    refine and_congr_left (fun _ => ?_)
    constructor
    · intro differ listed
      obtain ⟨j, member, same⟩ := List.mem_map.mp listed
      obtain ⟨e', listed', pairs'⟩ := (mem_issuers_iff all j).mp member
      exact differ e' listed' i j pairs pairs' same.symm
    · intro fresh e' listed' k j pairsK pairsJ same
      have member := (mem_issuers_iff all j).mpr ⟨e', listed', pairsJ⟩
      rw [pairs.unique pairsK, same] at fresh
      exact fresh (List.mem_map_of_mem member)

/-- A map that resolves the listed keys, each to itself and to its own domain, and no other. -/
structure Resolves (keys : TrustedIssuerMap) (items : List PyValue) : Prop where
  listed : ∀ e ∈ items, ∀ i, IsIssuer e i → ∃ t, kernelKeyThumbprint i.2 = .ok t ∧
    keys.resolveKey (.str t) = .ok (some i.2) ∧ keys.trustDomainFor t = some i.1
  only : ∀ t, (∀ e ∈ items, ∀ i, IsIssuer e i → kernelKeyThumbprint i.2 ≠ .ok t) →
    keys.resolveKey (.str t) = .ok none ∧ keys.trustDomainFor t = none

/-- No two of the keys that a list names have one thumbprint. -/
def ThumbprintsDiffer (items : List PyValue) : Prop :=
  ∀ e ∈ items, ∀ e' ∈ items, ∀ i i', IsIssuer e i → IsIssuer e' i' →
    kernelKeyThumbprint i.2 = kernelKeyThumbprint i'.2 → i.2 = i'.2

theorem loadIssuers_of_repeated {subject citation : PyStr} {items : List PyValue}
    {filed : TrustedIssuerMap × List (PyStr × List PyStr)}
    (files : items.foldlM (addIssuer subject citation) ([], []) = .ok filed)
    (repeated : (filed.2.find? (fun listed => 1 < listed.2.length)).isSome = true) :
    ∃ message, loadIssuers subject citation items = .error (.trustedIssuersConfig message) := by
  obtain ⟨listed, found⟩ := Option.isSome_iff_exists.mp repeated
  rw [loadIssuers, files, Raising.ok_bind]
  simp only [found]
  exact ⟨_, rfl⟩

theorem resolves_fileIssuers {thumbprint : PyStr × Bytes → PyStr}
    (derives : ∀ i : PyStr × Bytes, kernelKeyThumbprint i.2 = .ok (thumbprint i)) {items : List PyValue}
    {issuers : List (PyStr × Bytes)} (all : List.Forall₂ IsIssuer items issuers)
    (distinct : (issuers.map thumbprint).Nodup) :
    Resolves (issuers.foldl (fileIssuer thumbprint) ([], [])).1 items := by
  have found := lookup_fileIssuers_iff distinct
  generalize (issuers.foldl (fileIssuer thumbprint) ([], [])).1 = keys at found ⊢
  constructor
  · intro e listed i pairs
    have member := (mem_issuers_iff all i).mpr ⟨e, listed, pairs⟩
    have entry := (found (thumbprint i) ⟨i.2, i.1⟩).mpr ⟨i, member, rfl, rfl⟩
    refine ⟨_, derives i, ?_, ?_⟩
    · rw [TrustedIssuerMap.resolveKey, entry, Option.map_some]
    · rw [TrustedIssuerMap.trustDomainFor, entry, Option.map_some]
  · intro t others
    have unlisted : keys.lookup t = none := by
      refine Option.eq_none_iff_forall_ne_some.mpr (fun issuer entry => ?_)
      obtain ⟨i, member, same, _⟩ := (found t issuer).mp entry
      obtain ⟨e, listed, pairs⟩ := (mem_issuers_iff all i).mp member
      exact others e listed i pairs (same ▸ derives i)
    rw [TrustedIssuerMap.resolveKey, TrustedIssuerMap.trustDomainFor, unlisted]
    exact ⟨rfl, rfl⟩

theorem loadIssuers_cases (documented : CanonicalizesDocumented) {items : List PyValue}
    (differ : ThumbprintsDiffer items) (subject citation : PyStr) :
    (IsIssuerList items ∧ ∃ keys, loadIssuers subject citation items = .ok keys ∧ Resolves keys items) ∨
    (¬ IsIssuerList items ∧ ∃ message,
      loadIssuers subject citation items = .error (.trustedIssuersConfig message)) := by
  choose thumbprint derives using fun i : PyStr × Bytes => kernelKeyThumbprint_ok documented i.2
  rcases addIssuers_cases subject citation derives items ([], []) with
    ⟨named, issuers, all, filed⟩ | ⟨other, message, refused⟩
  · rw [IsIssuerList, pairwise_iff_nodup all]
    have distinctIff : (issuers.map thumbprint).Nodup ↔ (issuers.map Prod.snd).Nodup := by
      simp only [List.Nodup, List.pairwise_map]
      refine List.Pairwise.iff_of_mem (fun {i j} hi hj => not_congr ⟨fun same => ?_, fun same => ?_⟩)
      · obtain ⟨e, listed, pairs⟩ := (mem_issuers_iff all i).mp hi
        obtain ⟨e', listed', pairs'⟩ := (mem_issuers_iff all j).mp hj
        exact differ e listed e' listed' i j pairs pairs' (by rw [derives, derives, same])
      · have derived := derives j
        rw [← same, derives i, Except.ok.injEq] at derived
        exact derived
    by_cases distinct : (issuers.map thumbprint).Nodup
    · exact .inl ⟨⟨named, distinctIff.mp distinct⟩, _, loadIssuers_of_single filed (find_single distinct),
        resolves_fileIssuers derives all distinct⟩
    · exact .inr ⟨fun list => distinct (distinctIff.mpr list.2),
        loadIssuers_of_repeated filed (find_repeated distinct)⟩
  · refine .inr ⟨fun list => other list.1, message, ?_⟩
    rw [loadIssuers, refused]
    rfl

theorem buildKeyResolver_eq {config : Dict} {items : List PyValue}
    (configured : config.get "trustedIssuers" = .arr items) :
    buildKeyResolver config =
      loadIssuers (py "trust_config.trustedIssuers") (py " (spec §2.1)") items := by
  rw [buildKeyResolver, configured]
  cases items <;> rfl

/-- Maps that answer alike. -/
structure SameIssuers (keys keys' : TrustedIssuerMap) : Prop where
  resolveKey : ∀ value, keys.resolveKey value = keys'.resolveKey value
  trustDomainFor : ∀ t, keys.trustDomainFor t = keys'.trustDomainFor t

theorem Resolves.sameIssuers {keys keys' : TrustedIssuerMap} {items items' : List PyValue}
    (first : Resolves keys items) (second : Resolves keys' items') (reorders : items.Perm items') :
    SameIssuers keys keys' := by
  have each : ∀ t, keys.resolveKey (.str t) = keys'.resolveKey (.str t) ∧
      keys.trustDomainFor t = keys'.trustDomainFor t := by
    intro t
    by_cases listed : ∃ e ∈ items, ∃ i, IsIssuer e i ∧ kernelKeyThumbprint i.2 = .ok t
    · obtain ⟨e, member, i, pairs, derives⟩ := listed
      obtain ⟨t₁, derives₁, key₁, domain₁⟩ := first.listed e member i pairs
      obtain ⟨t₂, derives₂, key₂, domain₂⟩ := second.listed e (reorders.subset member) i pairs
      cases derives.symm.trans derives₁
      cases derives.symm.trans derives₂
      rw [key₁, key₂, domain₁, domain₂]
      exact ⟨rfl, rfl⟩
    · simp only [not_exists, not_and] at listed
      obtain ⟨key₁, domain₁⟩ := first.only t listed
      obtain ⟨key₂, domain₂⟩ := second.only t (fun e member => listed e (reorders.symm.subset member))
      rw [key₁, key₂, domain₁, domain₂]
      exact ⟨rfl, rfl⟩
  refine ⟨fun value => ?_, fun t => (each t).2⟩
  cases value with
  | str t => exact (each t).1
  | _ => rfl

omit [Libraries] in
theorem isIssuerList_perm {items items' : List PyValue} (reorders : items.Perm items')
    (list : IsIssuerList items) : IsIssuerList items' := by
  refine ⟨fun e member => list.1 e (reorders.symm.subset member), (reorders.pairwise_iff ?_).mp list.2⟩
  intro e e' differ i i' pairs pairs' same
  exact differ i' i pairs' pairs same.symm

theorem thumbprintsDiffer_perm {items items' : List PyValue} (reorders : items.Perm items')
    (differ : ThumbprintsDiffer items) : ThumbprintsDiffer items' :=
  fun e member e' member' =>
    differ e (reorders.symm.subset member) e' (reorders.symm.subset member')

/-- A configured list loads exactly if its entries name distinct keys, each with a domain. Then
the listed keys are resolved, each to itself and to its own domain, whatever the order of the
list. Any other list is refused as malformed. A key has one accepted spelling. -/
theorem buildKeyResolver_exact (documented : CanonicalizesDocumented) {config : Dict}
    {items : List PyValue} (configured : config.get "trustedIssuers" = .arr items)
    (differ : ThumbprintsDiffer items) :
    ((∃ keys, buildKeyResolver config = .ok keys) ↔ IsIssuerList items) ∧
    (∀ keys, buildKeyResolver config = .ok keys → Resolves keys items) ∧
    (∀ e, buildKeyResolver config = .error e → ∃ message, e = .trustedIssuersConfig message) ∧
    (∀ config' items', Dict.get config' "trustedIssuers" = .arr items' → items.Perm items' →
      ∀ keys, buildKeyResolver config = .ok keys →
        ∃ keys', buildKeyResolver config' = .ok keys' ∧ SameIssuers keys keys') ∧
    ∀ value data, strictB64urlDecode value = .ok data ↔ data ≠ [] ∧ value = b64url data := by
  rw [buildKeyResolver_eq configured]
  rcases loadIssuers_cases documented differ (py "trust_config.trustedIssuers") (py " (spec §2.1)") with
    ⟨list, keys, loads, resolves⟩ | ⟨other, message, refused⟩
  · rw [loads]
    refine ⟨⟨fun _ => list, fun _ => ⟨keys, rfl⟩⟩, ?_, ?_, ?_, fun _ _ => strictB64urlDecode_iff⟩
    · rintro _ ⟨⟩
      exact resolves
    · rintro _ ⟨⟩
    · rintro config' items' configured' reorders _ ⟨⟩
      rw [buildKeyResolver_eq configured']
      rcases loadIssuers_cases documented (thumbprintsDiffer_perm reorders differ)
        (py "trust_config.trustedIssuers") (py " (spec §2.1)") with
        ⟨_, keys', loads', resolves'⟩ | ⟨other, _⟩
      · exact ⟨keys', loads', resolves.sameIssuers resolves' reorders⟩
      · exact absurd (isIssuerList_perm reorders list) other
  · rw [refused]
    refine ⟨⟨?_, fun list => absurd list other⟩, ?_, ?_, ?_, fun _ _ => strictB64urlDecode_iff⟩
    · rintro ⟨_, ⟨⟩⟩
    · rintro _ ⟨⟩
    · rintro _ ⟨⟩
      exact ⟨message, rfl⟩
    · rintro _ _ _ _ _ ⟨⟩

omit [Libraries] in
/-- No bytes are encoded as the empty text, which is refused. -/
theorem strictB64urlDecode_empty : ¬ ∀ value,
    (∃ data, strictB64urlDecode value = .ok data) ↔ ∃ data, value = b64url data := by
  intro image
  obtain ⟨data, decoded⟩ := (image []).mpr ⟨[], rfl⟩
  obtain ⟨nonempty, empty⟩ := strictB64urlDecode_iff.mp decoded
  exact nonempty (b64url_injective (empty.symm.trans rfl))

end Loading

section Example

def jwkText : PyValue → Bytes
  | .obj [(_, .str crv), (_, .str kty), (_, .str x)] =>
    (py "\x7b\"crv\":\"" ++ crv ++ py "\",\"kty\":\"" ++ kty ++ py "\",\"x\":\"" ++ x ++
      py "\"\x7d").map (fun c => UInt8.ofNat c.val)
  | _ => []

/-- The canonicalizer on public keys, and a hash without collisions. -/
local instance jwkLibraries : Libraries :=
  { Libraries.plain with
    sha256 := id
    canonicalize := fun v => if isCanonicalizable v then some (jwkText v) else none }

theorem jwkLibraries_documented : CanonicalizesDocumented := by
  intro v
  change (if isCanonicalizable v = true then some (jwkText v) else none).isSome = _
  cases isCanonicalizable v <;> rfl

def twoKernels : List (PyStr × Bytes) :=
  [(py "vaid.example", List.replicate 32 0), (py "vaid.example", List.replicate 32 1)]

def kernelsConfig (issuers : List (PyStr × Bytes)) : Dict :=
  [(py "trustedIssuers", .arr (issuers.map issuerEntry))]

theorem isIssuer_twoKernels : ∀ i ∈ twoKernels, IsIssuer (issuerEntry i) i := by
  intro i member
  refine isIssuer_issuerEntry ?_
  rcases List.mem_pair.mp member with rfl | rfl <;> rfl

theorem isIssuerList_twoKernels : IsIssuerList (twoKernels.map issuerEntry) := by
  refine ⟨?_, List.pairwise_map.mpr (List.pairwise_pair.mpr ?_)⟩
  · intro e member
    obtain ⟨i, listed, rfl⟩ := List.mem_map.mp member
    exact ⟨i, isIssuer_twoKernels i listed⟩
  · intro i j pairs pairs' same
    rw [pairs.unique (isIssuer_twoKernels _ (by simp [twoKernels])),
      pairs'.unique (isIssuer_twoKernels _ (by simp [twoKernels]))] at same
    revert same
    decide

theorem buildKeyResolver_twoKernels : ∃ keys keys',
    buildKeyResolver (kernelsConfig twoKernels) = .ok keys ∧
      Resolves keys (twoKernels.map issuerEntry) ∧
      buildKeyResolver (kernelsConfig twoKernels.reverse) = .ok keys' ∧ SameIssuers keys keys' := by
  have apart : (twoKernels.map (fun i => kernelKeyThumbprint i.2)).Nodup := by decide +kernel
  have differ : ThumbprintsDiffer (twoKernels.map issuerEntry) := by
    intro e member e' member' i i' pairs pairs' same
    obtain ⟨j, listed, rfl⟩ := List.mem_map.mp member
    obtain ⟨j', listed', rfl⟩ := List.mem_map.mp member'
    rw [pairs.unique (isIssuer_twoKernels j listed), pairs'.unique (isIssuer_twoKernels j' listed')] at same ⊢
    rw [List.inj_on_of_nodup_map apart listed listed' same]
  have configured : (kernelsConfig twoKernels).get "trustedIssuers" =
      .arr (twoKernels.map issuerEntry) := rfl
  obtain ⟨loads, resolves, _, reorders, _⟩ :=
    buildKeyResolver_exact jwkLibraries_documented configured differ
  obtain ⟨keys, loaded⟩ := loads.mpr isIssuerList_twoKernels
  obtain ⟨keys', loaded', same⟩ := reorders (kernelsConfig twoKernels.reverse) _ rfl
    ((List.reverse_perm twoKernels).symm.map issuerEntry) keys loaded
  exact ⟨keys, keys', loaded, resolves keys loaded, loaded', same⟩

end Example

end VaidSuite.Python
