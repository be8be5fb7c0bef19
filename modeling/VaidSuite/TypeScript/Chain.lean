import VaidSuite.Chain
import VaidSuite.TypeScript.Verify

/-! The TypeScript mirror of chain verification by detached presentation: lineage
assembly, the presented bundle, consent attestations, and `verifyChainAt`. -/
namespace VaidSuite.TypeScript

/-- The id of a document. `none` is the `undefined` that an absent member reads as. -/
abbrev VaidId := Option JsStr

inductive ParentResolution where
  | root
  | parent (vaidId : VaidId)
  | unknown

/-- A resolver is its one method, `resolveParent`. -/
abbrev LineageResolver := VaidId → ParentResolution

/-- The `vaid_id` of a document whose shape has been checked. -/
def vaidIdOf (document : Members) : VaidId := (document.get "vaid_id").asStr

/-- The `parent_vaid` of a document whose shape has been checked. `none` is `null`. -/
def parentOf (document : Members) : Option VaidId :=
  match document.get "parent_vaid" with
  | .null => none
  | parent => some parent.asStr

/-- The loop of `assembleLineage`, leaf first. The fuel is the depth bound, which stops
the source's loop as well. -/
def assembleLoop (resolveParent : LineageResolver) :
    Nat → List VaidId → Option VaidId → Option (List VaidId)
  | _, chain, none => some chain.reverse
  | 0, _, some _ => none
  | fuel + 1, chain, some nextParent =>
    if nextParent ∈ chain ∨ maxLineageDepth ≤ chain.length then none
    else match resolveParent nextParent with
      | .root => assembleLoop resolveParent fuel (chain ++ [nextParent]) none
      | .parent parent => assembleLoop resolveParent fuel (chain ++ [nextParent]) (some parent)
      | .unknown => none

/-- The ordered lineage of `leaf`, root first. -/
def assembleLineage (leaf : JsValue) (resolveParent : LineageResolver) :
    Throws (Option (List VaidId)) := do
  let leaf ← requireVaidShape leaf "leaf"
  return assembleLoop resolveParent maxLineageDepth [vaidIdOf leaf] (parentOf leaf)

/-- The presented documents under their `vaid_id`. A later one replaces an earlier one. -/
abbrev PresentedBundle := List (VaidId × Members)

namespace PresentedBundle

def new (documents : List JsValue) : Throws PresentedBundle := do
  let shaped ← documents.mapM (fun d => requireVaidShape d "presented document")
  return InsertionMap.ofList vaidIdOf shaped

def get (bundle : PresentedBundle) (vaidId : VaidId) : Option Members := bundle.lookup vaidId

def documents (bundle : PresentedBundle) : List Members := bundle.map Prod.snd

def resolveParent (bundle : PresentedBundle) (vaidId : VaidId) : ParentResolution :=
  match bundle.get vaidId with
  | none => .unknown
  | some doc =>
    match parentOf doc with
    | none => .root
    | some parent => .parent parent

end PresentedBundle

/-- A resolver is its one method, `resolveKey`: the key accepted for a thumbprint. -/
abbrev KernelKeyResolver := JsValue → Option Bytes

variable [Runtime]

def SingleKernelKey.new (publicKey : Bytes) : Throws KernelKeyResolver := do
  let own ← kernelKeyThumbprint publicKey
  return fun thumbprint => if thumbprint.strictEq (.str own) then some publicKey else none

/-- Each key is filed under its own thumbprint. -/
def KernelKeyMap.new (publicKeys : List Bytes) : Throws KernelKeyResolver := do
  let thumbprints ← publicKeys.mapM kernelKeyThumbprint
  let keys := (thumbprints.zip publicKeys).foldl (fun m e => InsertionMap.set e.1 e.2 m) []
  return fun thumbprint => thumbprint.asStr.bind (fun s => keys.lookup s)

def attestationVersion : Nat := 1

def canonicalAttestationSigningBytes (attestation : Members) : Throws Bytes :=
  match Runtime.canonicalize (.obj (InsertionMap.set (js "signature") .null attestation)) with
  | some canonical => .ok (Runtime.sha256 canonical)
  | none => .error .jcsError

/-- The body of the last `try` of `verifyAttestationAuthenticity`. -/
def verifyAttestationSignature (kernelPublicKey : Bytes) (attestation : Members) : Throws Bool := do
  let signature ← numbersToBytes ((attestation.get "signature").orElse (.arr []))
  return Runtime.ed25519Verify signature (← canonicalAttestationSigningBytes attestation)
    kernelPublicKey

def verifyAttestationAuthenticity (kernelPublicKey : Bytes) (attestation : Members) : Bool :=
  if !(attestation.get "att_version").strictEq (.ofNat attestationVersion) then false
  else if !isValidTrustDomain (attestation.get "trust_domain") then false
  else match kernelKeyThumbprint kernelPublicKey with
    | .error _ => false
    | .ok expected =>
      if !(attestation.get "kernel_key_thumbprint").strictEq (.str expected) then false
      else match verifyAttestationSignature kernelPublicKey attestation with
        | .ok verified => verified
        | .error _ => false

/-- The text of a whole second in UTC, with a literal `Z`. -/
def isE6Text (s : JsStr) : Bool :=
  s.length == 20 && (s.zip (js "0000-00-00T00:00:00Z")).all (fun c =>
    if c.2 = Fin.ofNat 0x10000 '0'.toNat then JsonText.isDigit c.1.val else c.1 == c.2)

def parseE6 : JsValue → Option Int
  | .str s => if isE6Text s then Runtime.dateParse s else none
  | _ => none

/-- Is the consent inside its window at `now`? Expiry is exact and a young consent is
allowed some skew. -/
def isCurrent (attestation : Members) (now : Int) : Bool :=
  match parseE6 (attestation.get "issued_at"), parseE6 (attestation.get "expires_at") with
  | some issued, some expires =>
    if expires ≤ issued then false
    else if expires < now then false
    else decide (issued - mintPopFreshnessSecs * 1000 ≤ now)
  | _, _ => false

/-- The attestations a presenter supplies, by hop. A later one replaces an earlier one. -/
abbrev AttestationBundle := List (JsStr × Members)

namespace AttestationBundle

/-- The separator is a NUL. -/
def key (parentVaid childVaid : JsValue) : Throws JsStr := do
  return (← template parentVaid) ++ [0] ++ (← template childVaid)

def new (attestations : List Members) : Throws AttestationBundle := do
  let keys ← attestations.mapM (fun a => key (a.get "parent_vaid") (a.get "child_vaid"))
  return (keys.zip attestations).foldl (fun m e => InsertionMap.set e.1 e.2 m) []

def empty : AttestationBundle := []

def get (bundle : AttestationBundle) (parentVaid childVaid : JsValue) : Throws (Option Members) := do
  return bundle.lookup (← key parentVaid childVaid)

end AttestationBundle

/-- The value of a `ChainVerification`. -/
def chainVerdictValue : ChainVerification → JsStr
  | .attenuated => js "attenuated"
  | .inauthentic => js "inauthentic"
  | .unverifiable => js "unverifiable"
  | .notAttenuated => js "not_attenuated"
  | .expired => js "expired"
  | .consentExpired => js "consent_expired"

/-- Authenticity under the key accepted for the document's own thumbprint. -/
def authenticate (keys : KernelKeyResolver) (doc : Members) : Throws Bool :=
  match keys (doc.get "kernel_key_thumbprint") with
  | none => .ok false
  | some key => verifyVaidAuthenticity key (.obj doc)

/-- The consent a cross-key hop needs. -/
def verifyConsent (keys : KernelKeyResolver) (now : Int) (parent child attestation : Members) :
    Throws ChainVerification := do
  if !(attestation.get "kernel_key_thumbprint").strictEq (parent.get "kernel_key_thumbprint") ||
      !(attestation.get "trust_domain").strictEq (parent.get "trust_domain") then
    return .inauthentic
  match keys (attestation.get "kernel_key_thumbprint") with
  | none => return .inauthentic
  | some attKey =>
    if !verifyAttestationAuthenticity attKey attestation then return .inauthentic
    if !isCurrent attestation now then return .consentExpired
    if !(attestation.get "child_trust_domain").strictEq (child.get "trust_domain") ||
        !(attestation.get "child_tenant_id").strictEq (child.get "tenant_id") then
      return .notAttenuated
    if !(← scopeAttenuatesWithin (attestation.get "scope_boundary") (child.get "scope_boundary")) then
      return .notAttenuated
    if !(← capsAttenuateWithin (attestation.get "capability_set") (child.get "capability_set")) then
      return .notAttenuated
    if !(← scopeAttenuates parent (attestation.get "scope_boundary")) then return .notAttenuated
    if !(← capsAttenuate parent (attestation.get "capability_set")) then return .notAttenuated
    return .attenuated

/-- Containment over one hop, tenant included where one key signed both ends, and
consent where two did. -/
def verifyHop (keys : KernelKeyResolver) (attestations : AttestationBundle) (now : Int)
    (parent child : Members) : Throws ChainVerification := do
  let sameKey :=
    (parent.get "kernel_key_thumbprint").strictEq (child.get "kernel_key_thumbprint")
  if sameKey && !tenantAttenuates parent (child.get "trust_domain") (child.get "tenant_id") then
    return .notAttenuated
  if !(← scopeAttenuates parent (child.get "scope_boundary")) then return .notAttenuated
  if !(← capsAttenuate parent (child.get "capability_set")) then return .notAttenuated
  if !expiryAttenuates parent (child.get "expires_at") then return .notAttenuated
  if sameKey then return .attenuated
  match ← attestations.get (parent.get "vaid_id") (child.get "vaid_id") with
  | none => return .inauthentic
  | some attestation => verifyConsent keys now parent child attestation

/-- The hops of a chain, root first, up to the first that does not hold. -/
def verifyHops (keys : KernelKeyResolver) (attestations : AttestationBundle) (now : Int) :
    List Members → Throws ChainVerification
  | parent :: child :: rest => do
    match ← verifyHop keys attestations now parent child with
    | .attenuated => verifyHops keys attestations now (child :: rest)
    | refusal => return refusal
  | _ => return .attenuated

/-- The document of the chain that an assembled id names. -/
def chainDoc (leaf : Members) (bundle : PresentedBundle) (vaidId : VaidId) : Option Members :=
  if vaidId = vaidIdOf leaf then some leaf else bundle.get vaidId

/-- Authenticate every presented document, assemble the lineage, refuse a lapsed ancestor,
then check the hops. The leaf's own expiry is not consulted. -/
def verifyChainAt (keys : KernelKeyResolver) (leaf : JsValue) (bundle : PresentedBundle)
    (attestations : AttestationBundle) (now : Int) : Throws ChainVerification := do
  let leaf ← requireVaidShape leaf "leaf"
  if !(← authenticate keys leaf) then return .inauthentic
  if !(← bundle.documents.allM (authenticate keys)) then return .inauthentic
  match ← assembleLineage (.obj leaf) bundle.resolveParent with
  | none => return .unverifiable
  | some chainIds =>
    match chainIds.mapM (chainDoc leaf bundle) with
    | none => return .unverifiable
    | some chainDocs =>
      if chainDocs.dropLast.any (fun ancestor => isExpired ancestor now) then return .expired
      verifyHops keys attestations now chainDocs

end VaidSuite.TypeScript
