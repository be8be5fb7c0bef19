import VaidSuite.Python.Presented

/-! Which values have a canonical form: `rfc8785.dumps` refuses integers that a double does
not hold exactly, floats that are not finite, and strings that are not Unicode text. -/
namespace VaidSuite.Python

def isUnicode (s : PyStr) : Bool := s.all (fun c => c.toChar?.isSome)

def isCanonicalNumber : JsonNumber → Bool
  | .int n => decide (-(2 ^ 53 - 1) ≤ n ∧ n ≤ 2 ^ 53 - 1)
  | .float bits => bits.toNat / 2 ^ 52 % 2048 != 2047

mutual

def isCanonicalizable : PyValue → Bool
  | .null | .bool _ => true
  | .num n => isCanonicalNumber n
  | .str s => isUnicode s
  | .arr items => areCanonicalizable items
  | .obj members => haveCanonicalizable members

def areCanonicalizable : List PyValue → Bool
  | [] => true
  | v :: items => isCanonicalizable v && areCanonicalizable items

def haveCanonicalizable : List (PyStr × PyValue) → Bool
  | [] => true
  | (k, v) :: members => isUnicode k && isCanonicalizable v && haveCanonicalizable members

end

theorem isCanonicalizable_arr (items : List PyValue) :
    isCanonicalizable (.arr items) = true ↔ ∀ v ∈ items, isCanonicalizable v = true := by
  rw [isCanonicalizable]
  induction items with
  | nil => simp [areCanonicalizable]
  | cons v items ih => rw [areCanonicalizable, Bool.and_eq_true, ih, List.forall_mem_cons]

theorem isCanonicalizable_obj (members : Dict) : isCanonicalizable (.obj members) = true ↔
    ∀ m ∈ members, isUnicode m.1 = true ∧ isCanonicalizable m.2 = true := by
  rw [isCanonicalizable]
  induction members with
  | nil => simp [haveCanonicalizable]
  | cons m members ih =>
    obtain ⟨k, v⟩ := m
    rw [haveCanonicalizable, Bool.and_eq_true, Bool.and_eq_true, ih, List.forall_mem_cons]

theorem isCanonicalizable_of_set {key : String} {v : PyValue} {members : Dict}
    (replaced : isCanonicalizable (.obj (InsertionMap.set (py key) v members)) = true)
    (unicode : isUnicode (py key) = true)
    (before : isCanonicalizable (Dict.get members key) = true) :
    isCanonicalizable (.obj members) = true := by
  rw [isCanonicalizable_obj] at replaced ⊢
  intro m member
  rcases InsertionMap.mem_set_of_mem v member with kept | ⟨name, found⟩
  · exact replaced m kept
  · rw [Dict.get, found] at before
    exact ⟨name ▸ unicode, before⟩

/-- The canonicalizer refuses what it documents to refuse, and nothing else. -/
def CanonicalizesDocumented [Libraries] : Prop :=
  ∀ v, (Libraries.canonicalize v).isSome = isCanonicalizable v

theorem dumps_ok [Libraries] (documented : CanonicalizesDocumented) {v : PyValue}
    (canonicalizable : isCanonicalizable v = true) : ∃ b, dumps v = .ok b := by
  have defined := documented v
  rw [canonicalizable] at defined
  obtain ⟨b, h⟩ := Option.isSome_iff_exists.mp defined
  exact ⟨b, by rw [dumps, h]⟩

theorem isCanonicalizable_of_dumps [Libraries] (documented : CanonicalizesDocumented) {v : PyValue}
    {b : Bytes} (dumped : dumps v = .ok b) : isCanonicalizable v = true := by
  rw [← documented v]
  unfold dumps at dumped
  cases h : Libraries.canonicalize v with
  | some b => rfl
  | none =>
    rw [h] at dumped
    cases dumped

theorem isCanonicalizable_bytes {v : PyValue} (bytes : isByteList v = true) :
    isCanonicalizable v = true := by
  cases v with
  | arr items =>
    refine (isCanonicalizable_arr items).mpr (fun b member => ?_)
    have byte := List.all_eq_true.mp bytes b member
    split at byte
    · have bound := of_decide_eq_true byte
      simp only [isCanonicalizable, isCanonicalNumber, decide_eq_true_eq]
      omega
    · cases byte
  | _ => cases bytes

theorem isUnicode_b64url (data : Bytes) : isUnicode (b64url data) = true := by
  have alphabet : base64UrlAlphabet.all (fun c => (CodePoint.ofChar c).toChar?.isSome) = true := by decide
  have sextetText : ∀ n, (CodePoint.ofChar (sextet n)).toChar?.isSome = true := by
    intro n
    refine List.all_eq_true.mp alphabet _ ?_
    have inRange : n % 64 < base64UrlAlphabet.length := Nat.mod_lt _ (by decide)
    rw [sextet, List.getD_eq_getElem?_getD, List.getElem?_eq_getElem inRange]
    exact List.getElem_mem inRange
  unfold isUnicode b64url
  fun_induction base64Url data with
  | case1 => rfl
  | case2 a => simp [sextetText]
  | case3 a b => simp [sextetText]
  | case4 a b c rest ih => simpa [sextetText] using ih

theorem kernelKeyThumbprint_ok [Libraries] (documented : CanonicalizesDocumented) (key : Bytes) :
    ∃ thumbprint, kernelKeyThumbprint key = .ok thumbprint := by
  have text : isUnicode (py "crv") = true ∧ isUnicode (py "Ed25519") = true ∧
      isUnicode (py "kty") = true ∧ isUnicode (py "OKP") = true ∧ isUnicode (py "x") = true := by
    decide
  have jwk : isCanonicalizable (.obj [(py "crv", .str (py "Ed25519")), (py "kty", .str (py "OKP")),
      (py "x", .str (b64url key))]) = true := by
    simp only [isCanonicalizable, haveCanonicalizable, text, isUnicode_b64url, Bool.and_self]
  obtain ⟨canonical, dumped⟩ := dumps_ok documented jwk
  exact ⟨_, by rw [kernelKeyThumbprint, dumped]; rfl⟩

theorem Presented.isCanonicalizable_of_valid [Libraries] (documented : CanonicalizesDocumented)
    {d : Presented} {key : Bytes} (valid : d.authenticity key = .valid) :
    isCanonicalizable (.obj d.dict) = true := by
  have refuses : ∀ s ∈ d.authenticitySteps key, s.2 ≠ VaidVerdict.valid := by
    simp [authenticitySteps]
  have passes := (Guards.firstRefusal_eq_accepted_iff _ _ refuses).mp valid
  have signature : verifyKernelSignature key d.dict = .ok () := by
    simpa using passes (decide (verifyKernelSignature key d.dict = .ok ()), .inauthentic)
      (by simp [authenticitySteps])
  unfold verifyKernelSignature at signature
  split at signature
  · cases signature
  obtain ⟨_, _, signature⟩ := Raising.of_bind_eq_ok signature
  obtain ⟨_, _, signature⟩ := Raising.of_bind_eq_ok signature
  obtain ⟨_, signed, _⟩ := Raising.of_bind_eq_ok signature
  obtain ⟨canonical, dumped, _⟩ := Raising.of_bind_eq_ok signed
  have bytes := (d.required (show ("kernel_signature", isByteList) ∈ requiredMembers by
    simp [requiredMembers])).2
  exact isCanonicalizable_of_set (isCanonicalizable_of_dumps documented dumped) (by decide)
    (isCanonicalizable_bytes bytes)

end VaidSuite.Python
