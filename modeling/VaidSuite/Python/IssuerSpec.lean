import VaidSuite.UuidSpellings
import VaidSuite.Python.ChainSpec
import VaidSuite.Python.Issuer
import VaidSuite.Python.Totality

/-! What the issuer signs: a document that satisfies the contract, is authentic under its
kernel key, and says what was asked for. -/
namespace VaidSuite.Python

theorem raising_eq_ok_iff {α : Type} (body : Raises α) (a : α) :
    raising body = .ok a ↔ body = .ok a := by
  cases body <;> simp [raising, Except.mapError]

theorem toBytes_ofBytes [Libraries] (b : Bytes) : toBytes (.ofBytes b) = .ok b := by
  have byte : ∀ x : UInt8, toByte (.ofNat x.toNat) = .ok x := by
    intro x
    have range : (0 : Int) ≤ x.toNat ∧ (x.toNat : Int) < 256 := ⟨by omega, by
      have := x.toNat_lt
      omega⟩
    rw [Json.ofNat, toByte, if_pos range, Int.toNat_natCast, UInt8.ofNat_toNat]
  rw [Json.ofBytes, toBytes]
  induction b with
  | nil => rfl
  | cons x b ih =>
    rw [List.map_cons, List.mapM_cons, byte, ih]
    rfl

theorem isByteList_ofBytes (b : Bytes) : isByteList (.ofBytes b) = true := by
  refine List.all_eq_true.mpr (fun v member => ?_)
  obtain ⟨x, _, rfl⟩ := List.mem_map.mp member
  have bound := x.toNat_lt
  exact decide_eq_true (by omega)

theorem isStrList_map (strs : List PyStr) : isStrList (.arr (strs.map .str)) = true :=
  List.all_eq_true.mpr (fun v member => by
    obtain ⟨s, _, rfl⟩ := List.mem_map.mp member
    rfl)

theorem of_isValidTrustDomain {s : PyStr} (valid : isValidTrustDomain (.str s) = .ok true) :
    Encodable s ∧ (!s.isEmpty && isTrustDomain s) = true := by
  rw [isValidTrustDomain] at valid
  cases empty : s.isEmpty with
  | true =>
    rw [empty] at valid
    cases valid
  | false =>
    rw [empty] at valid
    cases encoded : encode s with
    | error e =>
      rw [encoded] at valid
      cases valid
    | ok b =>
      rw [encoded] at valid
      exact ⟨(returns_encode s).mp ⟨b, encoded⟩, Except.ok.inj valid⟩

variable [Libraries]

structure SigningKey [PrivateKeys] (seed : Bytes) : Prop where
  length : (PrivateKeys.publicBytesRaw seed).length = 32
  verifies : ∀ data, Libraries.ed25519Verify (PrivateKeys.publicBytesRaw seed)
    (PrivateKeys.sign seed data) data = true

namespace ReferenceIssuer

variable [PrivateKeys] {L R : Type}

/-- A document of this issuer. -/
structure Minted (issuer : ReferenceIssuer L R) (v : Presented) : Prop where
  trustDomain : v.trustDomain = issuer.trustDomain.val
  authentic : v.authenticity issuer.kernelPublicKey = .valid

/-- The document that was asked for. -/
structure IssuedAs (issuer : ReferenceIssuer L R) (env : IssueEnv) (attributes : IssueAttributes)
    (v : Presented) : Prop extends Minted issuer v where
  vaidId : v.vaidId = env.vaidId
  parentVaid : v.parentVaid = attributes.parentVaid
  tenantId : v.tenantId = attributes.tenantId
  scopeBoundary : .arr v.scopeBoundary = attributes.scopeBoundary
  capabilitySet : v.capabilitySet = attributes.capabilitySet

/-- The document that is signed. -/
def unsigned (issuer : ReferenceIssuer L R) (env : IssueEnv) (attributes : IssueAttributes)
    (publicKeyDer : Bytes) (expires : UtcDatetime) (entries : List PyValue)
    (lineageHash thumbprint : PyStr) : Dict :=
  buildUnsignedVaidDocument env.vaidId env.vaidId attributes.agentClass attributes.version
    attributes.tenantId (wholeSecondRfc3339 env.now) (wholeSecondRfc3339 expires) publicKeyDer
    attributes.parentVaid entries lineageHash attributes.capabilitySet issuer.trustDomain.val
    thumbprint

/-- The document as it is returned. -/
def signed (issuer : ReferenceIssuer L R) (env : IssueEnv) (attributes : IssueAttributes)
    (publicKeyDer : Bytes) (expires : UtcDatetime) (entries : List PyValue)
    (lineageHash thumbprint : PyStr) (digest : Bytes) : Dict :=
  InsertionMap.set (py "kernel_signature") (.ofBytes (PrivateKeys.sign issuer.kernelKey digest))
    (issuer.unsigned env attributes publicKeyDer expires entries lineageHash thumbprint)

variable {issuer : ReferenceIssuer L R} {env : IssueEnv} {attributes : IssueAttributes}
  {publicKeyDer : Bytes} {notAfter : PyValue} {expires : UtcDatetime} {entries : List PyValue}
  {lineageHash thumbprint : PyStr} {digest : Bytes} {d : Dict}

theorem of_buildAndSign_eq_ok (built : issuer.buildAndSign env attributes publicKeyDer notAfter = .ok d) :
    ∃ expires lineageHash thumbprint entries digest,
      computeLineageHash (optional attributes.parentVaid) (.str env.vaidId) = .ok lineageHash ∧
      Python.kernelKeyThumbprint issuer.kernelPublicKey = .ok thumbprint ∧
      iter attributes.scopeBoundary = .ok entries ∧
      canonicalVaidSigningBytes
        (issuer.unsigned env attributes publicKeyDer expires entries lineageHash thumbprint) =
          .ok digest ∧
      d = issuer.signed env attributes publicKeyDer expires entries lineageHash thumbprint digest := by
  obtain ⟨expires, _, built⟩ := Raising.of_bind_eq_ok built
  obtain ⟨lineageHash, hashed, built⟩ := Raising.of_bind_eq_ok built
  obtain ⟨thumbprint, named, built⟩ := Raising.of_bind_eq_ok built
  obtain ⟨entries, listed, built⟩ := Raising.of_bind_eq_ok built
  obtain ⟨digest, digested, built⟩ := Raising.of_bind_eq_ok built
  simp only [raising_eq_ok_iff] at hashed named listed digested
  exact ⟨expires, lineageHash, thumbprint, entries, digest, hashed, named, listed, digested,
    (Except.ok.inj built).symm⟩

omit [PrivateKeys] in
theorem isUuidText_vaidId (env : IssueEnv) : isUuidText env.vaidId = true := by
  rw [IssueEnv.vaidId]
  exact env.agentId.isUuidText_python

omit [PrivateKeys] in
theorem isUuid_vaidId (env : IssueEnv) : isUuid (.str env.vaidId) = true := by
  rw [isUuid, Json.asStr, Option.any_some, isUuidText_vaidId]

omit [Libraries] [PrivateKeys] in
theorem any_of_lookup {d : Dict} {key : String} {v : PyValue} {isWellTyped : PyValue → Bool}
    (found : d.lookup (py key) = some v) (typed : isWellTyped v = true) :
    (d.lookup (py key)).any isWellTyped = true := by
  rw [found]
  exact typed

theorem signed_satisfiesContract (boundary : isWellFormedScopeBoundary (.arr entries) = true)
    (parent : ∀ p, attributes.parentVaid = some p → isUuidText p = true) :
    satisfiesContract (issuer.signed env attributes publicKeyDer expires entries lineageHash thumbprint
      digest) = true := by
  have members : ∀ m ∈ requiredMembers, ((issuer.signed env attributes publicKeyDer expires entries
      lineageHash thumbprint digest).lookup (py m.1)).any m.2 = true := by
    simp only [requiredMembers, List.forall_mem_cons]
    exact ⟨any_of_lookup rfl (isUuid_vaidId env), any_of_lookup rfl (isUuid_vaidId env),
      any_of_lookup rfl rfl, any_of_lookup rfl rfl, any_of_lookup rfl rfl, any_of_lookup rfl rfl,
      any_of_lookup rfl rfl, any_of_lookup rfl (isByteList_ofBytes _),
      any_of_lookup rfl (isByteList_ofBytes _), any_of_lookup rfl boundary, any_of_lookup rfl rfl,
      any_of_lookup rfl (isStrList_map _), any_of_lookup rfl rfl, any_of_lookup rfl rfl, by simp⟩
  have named : (issuer.signed env attributes publicKeyDer expires entries lineageHash thumbprint
      digest).get "parent_vaid" = optional attributes.parentVaid := rfl
  have parents : parentIsUuid (issuer.signed env attributes publicKeyDer expires entries lineageHash
      thumbprint digest) = true := by
    rw [parentIsUuid, named]
    cases h : attributes.parentVaid with
    | none => rfl
    | some p => exact parent p h
  rw [satisfiesContract, List.all_eq_true.mpr members, parents]
  rfl

theorem verifyKernelSignature_signed (kernel : SigningKey issuer.kernelKey)
    (digested : canonicalVaidSigningBytes
      (issuer.unsigned env attributes publicKeyDer expires entries lineageHash thumbprint) = .ok digest) :
    verifyKernelSignature issuer.kernelPublicKey (issuer.signed env attributes publicKeyDer expires
      entries lineageHash thumbprint digest) = .ok () := by
  have item : (issuer.signed env attributes publicKeyDer expires entries lineageHash thumbprint
      digest).item "kernel_signature" = .ok (.ofBytes (PrivateKeys.sign issuer.kernelKey digest)) := rfl
  have same : canonicalVaidSigningBytes (issuer.signed env attributes publicKeyDer expires entries
      lineageHash thumbprint digest) = .ok digest := by
    rw [← digested, canonicalVaidSigningBytes, canonicalVaidSigningBytes, signed, InsertionMap.set_set]
  have length : issuer.kernelPublicKey.length = 32 := kernel.length
  simp only [verifyKernelSignature, length, item, same, toBytes_ofBytes, Raising.ok_bind, ed25519Check]
  exact if_pos (kernel.verifies digest)

theorem authenticity_signed (kernel : SigningKey issuer.kernelKey)
    (hashed : computeLineageHash (optional attributes.parentVaid) (.str env.vaidId) = .ok lineageHash)
    (named : Python.kernelKeyThumbprint issuer.kernelPublicKey = .ok thumbprint)
    (digested : canonicalVaidSigningBytes
      (issuer.unsigned env attributes publicKeyDer expires entries lineageHash thumbprint) = .ok digest)
    {v : Presented} (same : v.dict = issuer.signed env attributes publicKeyDer expires entries
      lineageHash thumbprint digest) :
    v.authenticity issuer.kernelPublicKey = .valid := by
  have version : v.dict.get "sig_version" = .num (.int vaidSigVersionV4) := by rw [same]; rfl
  have domain : v.trustDomain = issuer.trustDomain.val := by rw [Presented.trustDomain, Presented.text, same]; rfl
  have thumb : v.thumbprint = thumbprint := by rw [Presented.thumbprint, Presented.text, same]; rfl
  have parent : v.dict.get "parent_vaid" = optional attributes.parentVaid := by rw [same]; rfl
  have agent : v.agentId = env.vaidId := by rw [Presented.agentId, Presented.text, same]; rfl
  have hash : v.text "lineage_hash" = lineageHash := by rw [Presented.text, same]; rfl
  refine (Guards.firstRefusal_eq_accepted_iff _ _ (by simp [Presented.authenticitySteps])).mpr ?_
  simp only [Presented.authenticitySteps, List.forall_mem_cons, decide_eq_true_eq]
  refine ⟨?_, ?_, ?_, ?_, ?_, by simp⟩
  · rw [version]
    rfl
  · rw [domain]
    exact (of_isValidTrustDomain issuer.trustDomain.property).2
  · rw [named, thumb]
  · rw [parent, agent, hashed, hash]
  · rw [same]
    exact verifyKernelSignature_signed kernel digested

theorem issuedAs_of_buildAndSign (kernel : SigningKey issuer.kernelKey)
    (boundary : isWellFormedScopeBoundary attributes.scopeBoundary = true)
    (parent : ∀ p, attributes.parentVaid = some p → isUuidText p = true)
    (built : issuer.buildAndSign env attributes publicKeyDer notAfter = .ok d) :
    ∃ v : Presented, v.dict = d ∧ IssuedAs issuer env attributes v := by
  obtain ⟨expires, lineageHash, thumbprint, entries, digest, hashed, named, listed, digested, rfl⟩ :=
    of_buildAndSign_eq_ok built
  have whole : attributes.scopeBoundary = .arr entries := by
    cases scope : attributes.scopeBoundary with
    | arr items =>
      rw [scope] at listed
      exact congrArg Json.arr (Except.ok.inj listed)
    | _ =>
      rw [scope] at boundary
      cases boundary
  obtain ⟨v, same⟩ : ∃ v : Presented, v.dict = issuer.signed env attributes publicKeyDer expires entries
      lineageHash thumbprint digest :=
    ⟨⟨_, signed_satisfiesContract (whole ▸ boundary) parent⟩, rfl⟩
  have capabilities : v.dict.get "capability_set" = .arr (attributes.capabilitySet.map .str) := by
    rw [same]
    rfl
  have parents : v.dict.get "parent_vaid" = optional attributes.parentVaid := by
    rw [same]
    rfl
  refine ⟨v, same, ⟨?_, authenticity_signed kernel hashed named digested same⟩, ?_, ?_, ?_, ?_, ?_⟩
  · rw [Presented.trustDomain, Presented.text, same]
    rfl
  · rw [Presented.vaidId, vaidIdOf, same]
    rfl
  · rw [Presented.parentVaid, parentOf, parents]
    cases attributes.parentVaid <;> rfl
  · rw [Presented.tenantId, Presented.text, same]
    rfl
  · rw [whole, Presented.scopeBoundary, Presented.items, same]
    rfl
  · rw [v.get_capabilitySet] at capabilities
    exact (List.map_injective_iff.mpr (fun a b => Json.str.inj)) (Json.arr.inj capabilities)

omit [PrivateKeys] in
theorem of_verifyKernelSignature {key : Bytes} (verified : verifyKernelSignature key d = .ok ()) :
    key.length = 32 ∧ ∃ value signature digest, d.item "kernel_signature" = .ok value ∧
      toBytes value = .ok signature ∧ canonicalVaidSigningBytes d = .ok digest ∧
      ed25519Check key signature digest = .ok () := by
  rw [verifyKernelSignature] at verified
  by_cases length : key.length = 32
  · rw [if_neg (not_not.mpr length)] at verified
    obtain ⟨value, item, verified⟩ := Raising.of_bind_eq_ok verified
    obtain ⟨signature, bytes, verified⟩ := Raising.of_bind_eq_ok verified
    obtain ⟨digest, digested, verified⟩ := Raising.of_bind_eq_ok verified
    exact ⟨length, value, signature, digest, item, bytes, digested, verified⟩
  · rw [if_pos length] at verified
    cases verified

/-- The issuer accepts its own document exactly while it is unexpired, its lineage assembles,
and the store vouches for all of it. -/
theorem Minted.verifyVaid_iff [LineageStore L] [RevocationCheck R] {v : Presented} (minted : Minted issuer v)
    (now : UtcDatetime) : issuer.verifyVaid v.dict now = .ok true ↔
      isExpiredAt v.dict now = .ok false ∧ ∃ lineage,
        assembleLineage v.dict issuer.resolveParent = .ok (some lineage) ∧
        RevocationCheck.checkLineage issuer.revocation lineage = .notRevoked := by
  have steps := (Guards.firstRefusal_eq_accepted_iff _ _
    (by simp [Presented.authenticitySteps])).mp minted.authentic
  simp only [Presented.authenticitySteps, List.forall_mem_cons, decide_eq_true_eq] at steps
  obtain ⟨version, -, -, -, verified, -⟩ := steps
  obtain ⟨length, value, signature, digest, item, bytes, digested, checked⟩ :=
    of_verifyKernelSignature verified
  have scope := (v.required (show ("scope_boundary", isWellFormedScopeBoundary) ∈ requiredMembers by
    simp [requiredMembers])).2
  simp only [ReferenceIssuer.verifyVaid, version, scope, Bool.not_true, item, bytes, digested,
    Raising.ok_bind, checked, excepting, length]
  cases alive : isExpiredAt v.dict now with
  | error e =>
    constructor
    · rintro ⟨⟩
    · rintro ⟨⟨⟩, _⟩
  | ok expired =>
    cases expired with
    | true =>
      constructor
      · rintro ⟨⟩
      · rintro ⟨⟨⟩, _⟩
    | false =>
      rw [revocationStatus]
      cases assembled : assembleLineage v.dict issuer.resolveParent with
      | error e =>
        constructor
        · rintro ⟨⟩
        · rintro ⟨_, _, ⟨⟩, _⟩
      | ok lineage =>
        cases lineage with
        | none =>
          constructor
          · rintro ⟨⟩
          · rintro ⟨_, _, ⟨⟩, _⟩
        | some lineage =>
          cases vouched : RevocationCheck.checkLineage issuer.revocation lineage with
          | notRevoked =>
            simp [vouched]
            rfl
          | _ => simp [vouched]

end ReferenceIssuer

end VaidSuite.Python
