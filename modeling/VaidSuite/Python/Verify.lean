import VaidSuite.Verify
import VaidSuite.Python.Document

/-! The Python mirror of standalone verification: the structural contract of a parsed
document, and the graded authenticity verdict. -/
namespace VaidSuite.Python

def isStr (value : PyValue) : Bool := value.asStr.isSome

def isByteList : PyValue → Bool
  | .arr items => items.all (fun b =>
      match b with
      | .num (.int n) => decide (0 ≤ n ∧ n ≤ 255)
      | _ => false)
  | _ => false

def isStrList : PyValue → Bool
  | .arr items => items.all isStr
  | _ => false

variable [Libraries]

def isUuid (value : PyValue) : Bool := value.asStr.any isUuidText

def requiredMembers : List (String × (PyValue → Bool)) :=
  [("vaid_id", isUuid), ("agent_id", isUuid), ("agent_class", isStr), ("version", isStr),
    ("tenant_id", isStr), ("issued_at", isStr), ("expires_at", isStr),
    ("public_key_der", isByteList), ("kernel_signature", isByteList),
    ("scope_boundary", isWellFormedScopeBoundary), ("lineage_hash", isStr),
    ("capability_set", isStrList), ("trust_domain", isStr), ("kernel_key_thumbprint", isStr)]

/-- An absent `sig_version` is 0. It is a byte, because the Rust field is one. -/
def sigVersionIsByte (document : Dict) : Bool :=
  match document.lookup (py "sig_version") with
  | none => true
  | some (.num (.int n)) => decide (0 ≤ n ∧ n ≤ 255)
  | some _ => false

def parentIsUuid (document : Dict) : Bool :=
  match document.get "parent_vaid" with
  | .null => true
  | parent => isUuid parent

/-- What `parse_vaid_document` asks of the object that the text holds. -/
def satisfiesContract (document : Dict) : Bool :=
  requiredMembers.all (fun m => (document.lookup (py m.1)).any m.2) &&
    sigVersionIsByte document && parentIsUuid document

/-- Recompute the lineage hash from the document's own parent and agent. -/
def verifyLineageHash (vaid : Dict) : Raises Bool :=
  match vaid.get "agent_id" with
  | .null => .ok false
  | agentId => do
    return pyEq (.str (← computeLineageHash (vaid.get "parent_vaid") agentId)) (vaid.get "lineage_hash")

/-- The body of the last `try` of `verifyVaidAuthenticityGraded`. -/
def verifyKernelSignature (kernelPublicKey : Bytes) (vaid : Dict) : Raises Unit := do
  if kernelPublicKey.length ≠ 32 then throw .valueError
  let signature ← toBytes (← vaid.item "kernel_signature")
  ed25519Check kernelPublicKey signature (← canonicalVaidSigningBytes vaid)

/-- The order of the branches decides which reason a document gets. -/
def verifyVaidAuthenticityGraded (kernelPublicKey : Bytes) (vaid : Dict) : Raises VaidVerdict := do
  requireVaidShape vaid "vaid"
  if !pyEq (vaid.get "sig_version") (.num (.int vaidSigVersionV4)) then
    return .unsupportedSigVersion
  if !(← isValidTrustDomain (vaid.get "trust_domain")) then return .malformedTrustDomain
  match ← excepting [.typeError, .valueError] (kernelKeyThumbprint kernelPublicKey) with
  | none => return .issuerMismatch
  | some expected =>
    if !pyEq (vaid.get "kernel_key_thumbprint") (.str expected) then return .issuerMismatch
    if !(← verifyLineageHash vaid) then return .lineageInconsistent
    match ← excepting [.invalidSignature, .valueError, .keyError, .typeError]
        (verifyKernelSignature kernelPublicKey vaid) with
    | none => return .inauthentic
    | some () => return .valid

def verifyVaidAuthenticity (kernelPublicKey : Bytes) (vaid : Dict) : Raises Bool := do
  return (← verifyVaidAuthenticityGraded kernelPublicKey vaid) == .valid

end VaidSuite.Python
