import VaidSuite.MintTypes
import VaidSuite.Verify

/-! The reference issuer: the kernel signer, its lineage bookkeeping, and its own
verifier. -/
namespace VaidSuite

/-- An issuer over a lineage store and a revocation check. Its trust domain was
validated at construction. -/
structure ReferenceIssuer (L R : Type) where
  kernelKeyPair : Ed25519KeyPair
  vaidTtlHours : Int
  trustDomain : TrustDomain
  lineage : L
  revocation : R

structure IssueAttributes where
  agentClass : AgentClass
  version : String
  tenantId : TenantId
  parentVaid : Option VaidId
  scopeBoundary : List ScopeBoundaryEntry
  capabilitySet : List String

/-- What one issuing reads from outside: the fresh id, the clock, and the holder
key it generates and discards when none is registered. -/
structure IssueEnv where
  agentId : AgentId
  now : Instant
  agentKey : Ed25519KeyPair

namespace ReferenceIssuer

variable {L R : Type}

section Defaults

/-- The in-memory issuer: no lineage, and an absent revocation store. -/
def withKey (kernelKeyPair : Ed25519KeyPair) (vaidTtlHours : Int) (trustDomain : TrustDomain) :
    ReferenceIssuer InMemoryLineageStore InMemoryRevocationList :=
  ⟨kernelKeyPair, vaidTtlHours, trustDomain, .new, .new⟩

variable (issuer : ReferenceIssuer InMemoryLineageStore InMemoryRevocationList)

def assumingNothingRevoked : ReferenceIssuer InMemoryLineageStore InMemoryRevocationList :=
  { issuer with revocation := .assumeNothingRevoked }

def revoke (vaidId : VaidId) : ReferenceIssuer InMemoryLineageStore InMemoryRevocationList :=
  { issuer with revocation := issuer.revocation.revoke vaidId }

def clearLineage : ReferenceIssuer InMemoryLineageStore InMemoryRevocationList :=
  { issuer with lineage := issuer.lineage.clear }

end Defaults

section Issuing

variable [Crypto] [Chrono]

def kernelPublicKey (issuer : ReferenceIssuer L R) : Bytes :=
  Crypto.publicKey issuer.kernelKeyPair

/-- The instant a document will expire: the TTL, clamped to a readable ceiling. -/
def expiresAt (issuer : ReferenceIssuer L R) (env : IssueEnv) (notAfter : Option String) :
    MintResult Instant :=
  match env.now.truncSubsecs.addHours issuer.vaidTtlHours with
  | none => .panicked
  | some expires =>
    match notAfter with
    | none => .ok expires
    | some ceiling =>
      match Chrono.parseFromRfc3339 ceiling with
      | some cap => .ok (min expires cap)
      | none => .error (.unauthorized ("not_after '" ++ ceiling ++
          "' is not a readable RFC 3339 timestamp — an expiry ceiling that cannot be read bounds " ++
          "nothing"))

/-- The document with an empty signature. -/
def unsignedVaid (issuer : ReferenceIssuer L R) (env : IssueEnv) (attributes : IssueAttributes)
    (publicKeyDer : Bytes) (expires : Instant) : Vaid :=
  Vaid.withLineage env.agentId attributes.agentClass attributes.version attributes.tenantId
    env.now.truncSubsecs expires publicKeyDer [] attributes.parentVaid attributes.scopeBoundary
    (computeLineageHash attributes.parentVaid env.agentId) attributes.capabilitySet
    issuer.trustDomain.val (kernelKeyThumbprint issuer.kernelPublicKey)

def signedVaid (issuer : ReferenceIssuer L R) (env : IssueEnv) (attributes : IssueAttributes)
    (publicKeyDer : Bytes) (expires : Instant) : Vaid :=
  let unsigned := issuer.unsignedVaid env attributes publicKeyDer expires
  unsigned.withKernelSignature
    (Crypto.sign issuer.kernelKeyPair (canonicalVaidSigningBytes unsigned))

variable [LineageStore L]

/-- Every mint is recorded, a root as a root, and a refused write withholds the
signed document. -/
def buildAndSignVaid (issuer : ReferenceIssuer L R) (env : IssueEnv)
    (attributes : IssueAttributes) (publicKeyDer : Bytes) (notAfter : Option String) :
    MintResult Vaid × ReferenceIssuer L R :=
  match issuer.expiresAt env notAfter with
  | .panicked => (.panicked, issuer)
  | .error e => (.error e, issuer)
  | .ok expires =>
    let vaid := issuer.signedVaid env attributes publicKeyDer expires
    let (recorded, lineage) :=
      LineageStore.tryRecord issuer.lineage vaid.vaidId attributes.parentVaid
    match recorded with
    | .error e => (.error (.lineage (toString e)), { issuer with lineage := lineage })
    | .ok () => (.ok vaid, { issuer with lineage := lineage })

def issueVaidWithKey (issuer : ReferenceIssuer L R) (env : IssueEnv)
    (attributes : IssueAttributes) (publicKeyDer : Bytes) (notAfter : Option String) :
    MintResult Vaid × ReferenceIssuer L R :=
  issuer.buildAndSignVaid env attributes publicKeyDer notAfter

/-- Generate and discard: the holder key is the issuer's own. -/
def issueVaidWithLineage (issuer : ReferenceIssuer L R) (env : IssueEnv)
    (attributes : IssueAttributes) (notAfter : Option String) :
    MintResult Vaid × ReferenceIssuer L R :=
  issuer.buildAndSignVaid env attributes (Crypto.publicKey env.agentKey) notAfter

end Issuing

section Verifying

variable [LineageStore L] [RevocationCheck R]

def resolveParent (issuer : ReferenceIssuer L R) : LineageResolver :=
  LineageStore.resolveParent issuer.lineage

/-- An incomplete lineage is unavailable, and the store is not consulted. -/
def revocationStatus (issuer : ReferenceIssuer L R) (vaid : Vaid) : RevocationStatus :=
  match assembleLineage vaid issuer.resolveParent with
  | .incomplete => .unavailable
  | .complete lineage => RevocationCheck.checkLineage issuer.revocation lineage

def verifyVaid [Crypto] [Chrono] (issuer : ReferenceIssuer L R) (vaid : Vaid) (now : Instant) :
    Bool :=
  if vaid.sigVersion ≠ vaidSigVersionV4 then false
  else if vaid.isExpiredAt now then false
  else match issuer.revocationStatus vaid with
    | .notRevoked =>
      Crypto.ed25519Verify issuer.kernelPublicKey (canonicalVaidSigningBytes vaid)
        vaid.kernelSignature
    | .revoked | .unavailable => false

end Verifying

section Issued

variable [Crypto] [Chrono]

theorem parentVaid_signedVaid (issuer : ReferenceIssuer L R) (env : IssueEnv)
    (attributes : IssueAttributes) (publicKeyDer : Bytes) (expires : Instant) :
    (issuer.signedVaid env attributes publicKeyDer expires).parentVaid = attributes.parentVaid := by
  show ((some (attributes.parentVaid.map _)).bind id).map _ = attributes.parentVaid
  cases attributes.parentVaid <;> rfl

theorem authentic_signedVaid (verify : Crypto.SignaturesVerify) (issuer : ReferenceIssuer L R)
    (env : IssueEnv) (attributes : IssueAttributes) (publicKeyDer : Bytes) (expires : Instant) :
    Authentic issuer.kernelPublicKey (issuer.signedVaid env attributes publicKeyDer expires) where
  sigVersion := rfl
  trustDomain := issuer.trustDomain.property
  thumbprint := rfl
  lineageHash := by rw [parentVaid_signedVaid]; rfl
  signature := by
    rw [signedVaid, canonicalVaidSigningBytes_withKernelSignature]
    exact verify issuer.kernelKeyPair _

variable [LineageStore L]

/-- What an issue function does: it fails with the lineage written at most by a
refused write, or it signs a document and records it. -/
theorem buildAndSignVaid_cases (issuer : ReferenceIssuer L R) (env : IssueEnv)
    (attributes : IssueAttributes) (publicKeyDer : Bytes) (notAfter : Option String)
    {outcome : MintResult Vaid} {issuer' : ReferenceIssuer L R}
    (h : issuer.buildAndSignVaid env attributes publicKeyDer notAfter = (outcome, issuer')) :
    ((∀ v, outcome ≠ .ok v) ∧ issuer' = issuer) ∨
    (∃ expires, issuer.expiresAt env notAfter = .ok expires ∧
      issuer' = { issuer with lineage := (LineageStore.tryRecord issuer.lineage
        ⟨env.agentId.uuid⟩ attributes.parentVaid).2 } ∧
      ((∃ e, (LineageStore.tryRecord issuer.lineage ⟨env.agentId.uuid⟩
          attributes.parentVaid).1 = .error e ∧ outcome = .error (.lineage (toString e))) ∨
        ((LineageStore.tryRecord issuer.lineage ⟨env.agentId.uuid⟩
            attributes.parentVaid).1 = .ok () ∧
          outcome = .ok (issuer.signedVaid env attributes publicKeyDer expires)))) := by
  unfold buildAndSignVaid at h
  cases expiry : issuer.expiresAt env notAfter with
  | panicked =>
    simp only [expiry] at h
    cases h
    exact .inl ⟨by rintro v ⟨⟩, rfl⟩
  | error e =>
    simp only [expiry] at h
    cases h
    exact .inl ⟨by rintro v ⟨⟩, rfl⟩
  | ok expires =>
    refine .inr ⟨expires, rfl, ?_⟩
    simp only [expiry] at h
    have id : (issuer.signedVaid env attributes publicKeyDer expires).vaidId =
        ⟨env.agentId.uuid⟩ := rfl
    rw [id] at h
    cases recorded : (LineageStore.tryRecord issuer.lineage ⟨env.agentId.uuid⟩
      attributes.parentVaid).1 with
    | error e =>
      simp only [recorded] at h
      cases h
      exact ⟨rfl, .inl ⟨e, rfl, rfl⟩⟩
    | ok u =>
      simp only [recorded] at h
      cases h
      exact ⟨rfl, .inr ⟨rfl, rfl⟩⟩

/-- An issue function succeeds exactly when the expiry can be computed and the
lineage written, and then it has signed and recorded one document. -/
theorem buildAndSignVaid_eq_ok_iff (issuer : ReferenceIssuer L R) (env : IssueEnv)
    (attributes : IssueAttributes) (publicKeyDer : Bytes) (notAfter : Option String)
    (v : Vaid) (issuer' : ReferenceIssuer L R) :
    issuer.buildAndSignVaid env attributes publicKeyDer notAfter = (.ok v, issuer') ↔
      ∃ expires, issuer.expiresAt env notAfter = .ok expires ∧
        (LineageStore.tryRecord issuer.lineage ⟨env.agentId.uuid⟩ attributes.parentVaid).1 = .ok () ∧
        v = issuer.signedVaid env attributes publicKeyDer expires ∧
        issuer' = { issuer with lineage := (LineageStore.tryRecord issuer.lineage
          ⟨env.agentId.uuid⟩ attributes.parentVaid).2 } := by
  constructor
  · intro h
    rcases buildAndSignVaid_cases issuer env attributes publicKeyDer notAfter h with
      ⟨failed, _⟩ | ⟨expires, expiry, after, ⟨e, _, refused⟩ | ⟨recorded, signed⟩⟩
    · exact absurd rfl (failed v)
    · cases refused
    · cases signed
      exact ⟨expires, expiry, recorded, rfl, after⟩
  · rintro ⟨expires, expiry, recorded, rfl, rfl⟩
    have id : (issuer.signedVaid env attributes publicKeyDer expires).vaidId =
        ⟨env.agentId.uuid⟩ := rfl
    simp only [buildAndSignVaid, expiry, id, recorded]

/-- `v` came out of an issue function of `issuer`. -/
def Mints (issuer : ReferenceIssuer L R) (v : Vaid) : Prop :=
  ∃ env attributes notAfter,
    (∃ publicKeyDer, (issuer.issueVaidWithKey env attributes publicKeyDer notAfter).1 = .ok v) ∨
      (issuer.issueVaidWithLineage env attributes notAfter).1 = .ok v

theorem mints_signed {issuer : ReferenceIssuer L R} {v : Vaid} (minted : issuer.Mints v) :
    ∃ env attributes publicKeyDer expires,
      v = issuer.signedVaid env attributes publicKeyDer expires := by
  obtain ⟨env, attributes, notAfter, h⟩ := minted
  have built : ∃ publicKeyDer,
      (issuer.buildAndSignVaid env attributes publicKeyDer notAfter).1 = .ok v := by
    rcases h with ⟨publicKeyDer, h⟩ | h
    · exact ⟨publicKeyDer, h⟩
    · exact ⟨_, h⟩
  obtain ⟨publicKeyDer, built⟩ := built
  rcases buildAndSignVaid_cases issuer env attributes publicKeyDer notAfter
    (Prod.mk.eta).symm with ⟨failed, _⟩ | ⟨expires, _, _, ⟨e, _, refused⟩ | ⟨_, signed⟩⟩
  · exact absurd built (failed v)
  · rw [built] at refused; cases refused
  · rw [built] at signed; cases signed
    exact ⟨env, attributes, publicKeyDer, expires, rfl⟩

end Issued

section Verifiers

variable [Crypto] [Chrono] [LineageStore L] [RevocationCheck R]

theorem verifyVaid_iff (issuer : ReferenceIssuer L R) (vaid : Vaid) (now : Instant) :
    issuer.verifyVaid vaid now = true ↔
      vaid.sigVersion = vaidSigVersionV4 ∧ vaid.isExpiredAt now = false ∧
        issuer.revocationStatus vaid = .notRevoked ∧
        Crypto.ed25519Verify issuer.kernelPublicKey (canonicalVaidSigningBytes vaid)
          vaid.kernelSignature = true := by
  unfold verifyVaid
  rw [Guards.guard_eq_iff (by decide), Guards.guard_eq_iff (by decide), not_not,
    Bool.not_eq_true]
  cases issuer.revocationStatus vaid <;> simp

/-- Once `issuer` has minted `v`, whatever has become of its stores, its own verifier
checks expiry and revocation, and the standing verifier the boundary as well. -/
theorem verifiers_on_minted (verify : Crypto.SignaturesVerify) {issuer : ReferenceIssuer L R}
    {v : Vaid} (minted : issuer.Mints v) (lineage : L) (revocation : R) (now : Instant) :
    let later := { issuer with lineage := lineage, revocation := revocation }
    (later.verifyVaid v now = true ↔
      v.isExpiredAt now = false ∧ later.revocationStatus v = .notRevoked) ∧
    (verifyVaidStanding later.kernelPublicKey v (later.revocationStatus v) now = .valid ↔
      v.isExpiredAt now = false ∧ boundaryIsEvaluable v.scopeBoundary = true ∧
        later.revocationStatus v = .notRevoked) := by
  intro later
  obtain ⟨env, attributes, publicKeyDer, expires, rfl⟩ := mints_signed minted
  have authentic : Authentic later.kernelPublicKey _ :=
    authentic_signedVaid verify issuer env attributes publicKeyDer expires
  rw [verifyVaid_iff, verifyVaidStanding_eq_valid_iff]
  simp [authentic, authentic.sigVersion, authentic.signature]

/-- The two verifiers agree on a minted document exactly when its boundary can be
read, or it is expired, or its revocation status already refuses it. -/
theorem verifiers_agree_iff (verify : Crypto.SignaturesVerify) {issuer : ReferenceIssuer L R}
    {v : Vaid} (minted : issuer.Mints v) (lineage : L) (revocation : R) (now : Instant) :
    let later := { issuer with lineage := lineage, revocation := revocation }
    (later.verifyVaid v now = true ↔
        verifyVaidStanding later.kernelPublicKey v (later.revocationStatus v) now = .valid) ↔
      boundaryIsEvaluable v.scopeBoundary = true ∨ v.isExpiredAt now = true ∨
        later.revocationStatus v ≠ .notRevoked := by
  intro later
  obtain ⟨own, standing⟩ := verifiers_on_minted verify minted lineage revocation now
  rw [own, standing]
  cases boundaryIsEvaluable v.scopeBoundary <;> cases v.isExpiredAt now <;> simp [later]

end Verifiers

section Example

local instance exampleCrypto : Crypto := .standIn

local instance exampleChrono : Chrono :=
  .table [(1893456000, "2030-01-01T00:00:00Z"), (1893459600, "2030-01-01T01:00:00Z")]

def exampleIssuer : ReferenceIssuer InMemoryLineageStore InMemoryRevocationList :=
  (withKey ⟨[1]⟩ 1 ⟨"vaid.example", isValidTrustDomain_example⟩).assumingNothingRevoked

def exampleEnv : IssueEnv := ⟨⟨.fromU128 1⟩, ⟨1893456000, 0⟩, ⟨[2]⟩⟩

def laterKindAttributes : IssueAttributes where
  agentClass := ⟨"researcher"⟩
  version := "1.0.0"
  tenantId := ⟨"acme"⟩
  parentVaid := none
  scopeBoundary := [⟨"rate", ⟨.ofNat 5, rfl⟩, rfl⟩]
  capabilitySet := []

end Example

end ReferenceIssuer

end VaidSuite
