import VaidSuite.Chain
import VaidSuite.Python.Verify

/-! The Python mirror of chain verification by detached presentation: lineage assembly,
the presented bundle, consent attestations, and `verify_chain_at`. -/
namespace VaidSuite.Python

inductive ParentResolution where
  | root
  | parent (vaidId : PyStr)
  | unknown

/-- A resolver is its one method, `resolve_parent`. -/
abbrev LineageResolver := PyStr → ParentResolution

/-- The `vaid_id` of a document whose shape has been checked. -/
def vaidIdOf (document : Dict) : PyStr := (document.get "vaid_id").asStr.getD []

/-- The `parent_vaid` of a document whose shape has been checked. -/
def parentOf (document : Dict) : Option PyStr := (document.get "parent_vaid").asStr

/-- The loop of `assembleLineage`, leaf first. The fuel is the depth bound, which stops
the source's loop as well. -/
def assembleLoop (resolveParent : LineageResolver) :
    Nat → List PyStr → Option PyStr → Option (List PyStr)
  | _, chain, none => some chain.reverse
  | 0, _, some _ => none
  | fuel + 1, chain, some nextParent =>
    if nextParent ∈ chain ∨ maxLineageDepth ≤ chain.length then none
    else match resolveParent nextParent with
      | .root => assembleLoop resolveParent fuel (chain ++ [nextParent]) none
      | .parent parent => assembleLoop resolveParent fuel (chain ++ [nextParent]) (some parent)
      | .unknown => none

/-- The ordered lineage of `leaf`, root first. -/
def assembleLineage (leaf : Dict) (resolveParent : LineageResolver) :
    Raises (Option (List PyStr)) := do
  requireVaidShape leaf "leaf"
  return assembleLoop resolveParent maxLineageDepth [vaidIdOf leaf] (parentOf leaf)

/-- The presented documents under their `vaid_id`. A later one replaces an earlier one. -/
abbrev PresentedBundle := List (PyStr × Dict)

namespace PresentedBundle

def new (documents : List Dict) : Raises PresentedBundle := do
  let _ ← documents.mapM (fun d => requireVaidShape d "presented document")
  return InsertionMap.ofList vaidIdOf documents

def get (bundle : PresentedBundle) (vaidId : PyStr) : Option Dict := bundle.lookup vaidId

def documents (bundle : PresentedBundle) : List Dict := bundle.map Prod.snd

def resolveParent (bundle : PresentedBundle) (vaidId : PyStr) : ParentResolution :=
  match bundle.get vaidId with
  | none => .unknown
  | some doc =>
    match parentOf doc with
    | none => .root
    | some parent => .parent parent

end PresentedBundle

/-- A resolver is its one method, `resolve_key`: the key accepted for a thumbprint. -/
abbrev KernelKeyResolver := PyValue → Raises (Option Bytes)

variable [Libraries]

def attestationVersion : Int := 1

def canonicalAttestationSigningBytes (attestation : Dict) : Raises Bytes := do
  let payload := InsertionMap.set (py "signature") .null attestation
  return Libraries.sha256 (← dumps (.obj payload))

/-- The body of the last `try` of `verifyAttestationAuthenticity`. -/
def verifyAttestationSignature (kernelPublicKey : Bytes) (attestation : Dict) : Raises Unit := do
  if kernelPublicKey.length ≠ 32 then throw .valueError
  let signature := attestation.get "signature"
  let signature ← toBytes (if truthy signature then signature else .arr [])
  ed25519Check kernelPublicKey signature (← canonicalAttestationSigningBytes attestation)

def verifyAttestationAuthenticity (kernelPublicKey : Bytes) (attestation : Dict) :
    Raises Bool := do
  if !pyEq (attestation.get "att_version") (.num (.int attestationVersion)) then return false
  if !(← isValidTrustDomain (attestation.get "trust_domain")) then return false
  match ← excepting [.typeError, .valueError] (kernelKeyThumbprint kernelPublicKey) with
  | none => return false
  | some expected =>
    if !pyEq (attestation.get "kernel_key_thumbprint") (.str expected) then return false
    return (← excepting [.invalidSignature, .valueError, .typeError]
      (verifyAttestationSignature kernelPublicKey attestation)).isSome

def parseE6 (value : PyValue) : Option UtcDatetime := value.asStr.bind Libraries.strptime

/-- Is the consent inside its window at `now`? Expiry is exact and a young consent is
allowed some skew. -/
def isCurrent (attestation : Dict) (now : UtcDatetime) : Raises Bool := do
  match parseE6 (attestation.get "issued_at"), parseE6 (attestation.get "expires_at") with
  | some issued, some expires =>
    if expires ≤ issued then return false
    if expires < now then return false
    let earliest ← utcDatetime (issued.val - mintPopFreshnessSecs * 1000000)
    return decide (earliest ≤ now)
  | _, _ => return false

/-- The attestations a presenter supplies. A later one for a hop replaces an earlier one. -/
abbrev AttestationBundle := List Dict

namespace AttestationBundle

/-- Filing an attestation under its hop reads the hop and hashes it. -/
def new (attestations : List Dict) : Raises AttestationBundle := do
  let _ ← attestations.mapM (fun a => do
    let parentVaid ← Dict.item a "parent_vaid"
    let childVaid ← Dict.item a "child_vaid"
    if hashable parentVaid && hashable childVaid then pure () else throw PyException.typeError)
  return attestations

def empty : AttestationBundle := []

def get (bundle : AttestationBundle) (parentVaid childVaid : PyValue) : Option Dict :=
  bundle.reverse.find? (fun a =>
    pyEq (Dict.get a "parent_vaid") parentVaid && pyEq (Dict.get a "child_vaid") childVaid)

end AttestationBundle

omit [Libraries] in
/-- The value of a `ChainVerification`. -/
def chainVerdictValue : ChainVerification → PyStr
  | .attenuated => py "attenuated"
  | .inauthentic => py "inauthentic"
  | .unverifiable => py "unverifiable"
  | .notAttenuated => py "not_attenuated"
  | .expired => py "expired"
  | .consentExpired => py "consent_expired"

/-- Authenticity under the key accepted for the document's own thumbprint. -/
def authenticate (keys : KernelKeyResolver) (doc : Dict) : Raises Bool := do
  match ← keys (doc.get "kernel_key_thumbprint") with
  | none => return false
  | some key => verifyVaidAuthenticity key doc

/-- The consent a cross-key hop needs. -/
def verifyConsent (keys : KernelKeyResolver) (now : UtcDatetime)
    (parent child attestation : Dict) : Raises ChainVerification := do
  if !pyEq (← attestation.item "kernel_key_thumbprint") (← parent.item "kernel_key_thumbprint") then
    return .inauthentic
  if !pyEq (← attestation.item "trust_domain") (← parent.item "trust_domain") then
    return .inauthentic
  match ← keys (← attestation.item "kernel_key_thumbprint") with
  | none => return .inauthentic
  | some key =>
    if !(← verifyAttestationAuthenticity key attestation) then return .inauthentic
    if !(← isCurrent attestation now) then return .consentExpired
    if !pyEq (← attestation.item "child_trust_domain") (← child.item "trust_domain") then
      return .notAttenuated
    if !pyEq (← attestation.item "child_tenant_id") (← child.item "tenant_id") then
      return .notAttenuated
    if !(← scopeAttenuatesWithin (← attestation.item "scope_boundary")
        (← child.item "scope_boundary")) then return .notAttenuated
    if !(← capsAttenuateWithin (← attestation.item "capability_set")
        (← child.item "capability_set")) then return .notAttenuated
    if !(← scopeAttenuates parent (← attestation.item "scope_boundary")) then return .notAttenuated
    if !(← capsAttenuate parent (← attestation.item "capability_set")) then return .notAttenuated
    return .attenuated

/-- Containment over one hop, tenant included where one key signed both ends, and
consent where two did. -/
def verifyHop (keys : KernelKeyResolver) (attestations : AttestationBundle) (now : UtcDatetime)
    (parent child : Dict) : Raises ChainVerification := do
  let sameKey :=
    pyEq (← parent.item "kernel_key_thumbprint") (← child.item "kernel_key_thumbprint")
  let tenantHolds ← (do
    if sameKey then
      tenantAttenuates parent (← child.item "trust_domain") (← child.item "tenant_id")
    else pure true)
  if !tenantHolds then return .notAttenuated
  if !(← scopeAttenuates parent (← child.item "scope_boundary")) then return .notAttenuated
  if !(← capsAttenuate parent (← child.item "capability_set")) then return .notAttenuated
  if !(← expiryAttenuates parent (child.get "expires_at")) then return .notAttenuated
  if sameKey then return .attenuated
  match attestations.get (← parent.item "vaid_id") (← child.item "vaid_id") with
  | none => return .inauthentic
  | some attestation => verifyConsent keys now parent child attestation

/-- The hops of a chain, root first, up to the first that does not hold. -/
def verifyHops (keys : KernelKeyResolver) (attestations : AttestationBundle) (now : UtcDatetime) :
    List Dict → Raises ChainVerification
  | parent :: child :: rest => do
    match ← verifyHop keys attestations now parent child with
    | .attenuated => verifyHops keys attestations now (child :: rest)
    | refusal => return refusal
  | _ => return .attenuated

/-- The document of the chain that an assembled id names. -/
def chainDoc (leaf : Dict) (bundle : PresentedBundle) (vaidId : PyStr) : Option Dict :=
  if vaidId = vaidIdOf leaf then some leaf else bundle.get vaidId

/-- Authenticate every presented document, assemble the lineage, refuse a lapsed ancestor,
then check the hops. The leaf's own expiry is not consulted. -/
def verifyChainAt (keys : KernelKeyResolver) (leaf : Dict) (bundle : PresentedBundle)
    (attestations : AttestationBundle) (now : UtcDatetime) : Raises ChainVerification := do
  requireVaidShape leaf "leaf"
  if !(← authenticate keys leaf) then return .inauthentic
  if !(← bundle.documents.allM (authenticate keys)) then return .inauthentic
  match ← assembleLineage leaf bundle.resolveParent with
  | none => return .unverifiable
  | some chainIds =>
    match chainIds.mapM (chainDoc leaf bundle) with
    | none => return .unverifiable
    | some chainDocs =>
      if ← chainDocs.dropLast.anyM (fun ancestor => isExpiredAt ancestor now) then return .expired
      verifyHops keys attestations now chainDocs

end VaidSuite.Python
