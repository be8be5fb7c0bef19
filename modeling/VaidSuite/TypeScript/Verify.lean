import VaidSuite.TypeScript.Document
import VaidSuite.Verify

/-! The TypeScript mirror of standalone verification: the structural contract of a parsed
document, and the graded authenticity verdict. -/
namespace VaidSuite.TypeScript

def isString (v : JsValue) : Bool := v.asStr.isSome

def isByteList : JsValue → Bool
  | .arr items => items.all (fun b =>
      match b with
      | .num bits => Binary64.isByte bits
      | _ => false)
  | _ => false

def isStringList : JsValue → Bool
  | .arr items => items.all isString
  | _ => false

def isHexUnit (c : CodeUnit) : Bool := JsonText.isHexDigit c.val

/-- `8-4-4-4-12` hexadecimal digits. -/
def isHyphenated (s : JsStr) : Bool :=
  s.length == 36 && s.zipIdx.all (fun c =>
    if c.2 = 8 ∨ c.2 = 13 ∨ c.2 = 18 ∨ c.2 = 23 then [c.1] == js "-" else isHexUnit c.1)

/-- The spellings of a UUID: hyphenated, in braces, as a URN, and without hyphens. -/
def isUuidText (s : JsStr) : Bool :=
  isHyphenated s ||
    (s.head? == (js "\x7b").head? && s.getLast? == (js "\x7d").head? &&
      isHyphenated s.tail.dropLast) ||
    ((js "urn:uuid:").isPrefixOf s && isHyphenated (s.drop 9)) ||
    (s.length == 32 && s.all isHexUnit)

def isUuid (v : JsValue) : Bool := v.asStr.any isUuidText

def requiredMembers : List (String × (JsValue → Bool)) :=
  [("vaid_id", isUuid), ("agent_id", isUuid), ("agent_class", isString), ("version", isString),
    ("tenant_id", isString), ("issued_at", isString), ("expires_at", isString),
    ("public_key_der", isByteList), ("kernel_signature", isByteList),
    ("scope_boundary", isWellFormedScopeBoundary), ("lineage_hash", isString),
    ("capability_set", isStringList), ("trust_domain", isString),
    ("kernel_key_thumbprint", isString)]

/-- An absent `sig_version` is 0. It is a byte, because the Rust field is one. -/
def sigVersionIsByte (document : Members) : Bool :=
  match (document.get "sig_version").orElse (.ofNat 0) with
  | .num bits => Binary64.isByte bits
  | _ => false

def parentIsUuid (document : Members) : Bool :=
  match document.get "parent_vaid" with
  | .undefined | .null => true
  | parent => isUuid parent

/-- What `parseVaidDocument` asks of the object that the text holds. -/
def satisfiesContract (document : Members) : Bool :=
  requiredMembers.all (fun m => (document.lookup (js m.1)).any m.2) &&
    sigVersionIsByte document && parentIsUuid document

variable [Runtime]

/-- Recompute the lineage hash from the document's own parent and agent. -/
def verifyLineageHash (vaid : Members) : Throws Bool :=
  match vaid.get "agent_id" with
  | .str agentId => do
    let computed ← computeLineageHash ((vaid.get "parent_vaid").orElse .null) agentId
    return (JsValue.str computed).strictEq (vaid.get "lineage_hash")
  | _ => .ok false

/-- An element of a `Uint8Array`. -/
def toByte : JsValue → Throws UInt8
  | .num bits => .ok (Binary64.toByte bits)
  | v =>
    match Runtime.toNumber v with
    | some bits => .ok (Binary64.toByte bits)
    | none => .error .typeError

/-- `Uint8Array.from(v)`. -/
def numbersToBytes : JsValue → Throws Bytes
  | .arr items => items.mapM toByte
  | v =>
    match Runtime.bytesOfArrayLike v with
    | some bytes => .ok bytes
    | none => .error .typeError

/-- The body of the `try` of `verifyVaidAuthenticityGraded`. -/
def verifyKernelSignature (kernelPublicKey : Bytes) (vaid : Members) : Throws Bool := do
  let signature ← numbersToBytes (vaid.get "kernel_signature")
  return Runtime.ed25519Verify signature (← canonicalVaidSigningBytes vaid) kernelPublicKey

/-- The order of the branches decides which reason a document gets. -/
def verifyVaidAuthenticityGraded (kernelPublicKey : Bytes) (vaid : JsValue) :
    Throws VaidVerdict := do
  let vaid ← requireVaidShape vaid "vaid"
  if !(vaid.get "sig_version").strictEq (.ofNat vaidSigVersionV4) then
    return .unsupportedSigVersion
  if !isValidTrustDomain (vaid.get "trust_domain") then return .malformedTrustDomain
  if !(vaid.get "kernel_key_thumbprint").strictEq (.str (← kernelKeyThumbprint kernelPublicKey)) then
    return .issuerMismatch
  if !(← verifyLineageHash vaid) then return .lineageInconsistent
  match verifyKernelSignature kernelPublicKey vaid with
  | .ok true => return .valid
  | .ok false | .error _ => return .inauthentic

def verifyVaidAuthenticity (kernelPublicKey : Bytes) (vaid : JsValue) : Throws Bool := do
  return (← verifyVaidAuthenticityGraded kernelPublicKey vaid) == .valid

end VaidSuite.TypeScript
