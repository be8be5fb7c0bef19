import VaidSuite.Python.Chain

/-! The MCP server's chain and scope tools: a pasted chain is verified, described hop by
hop, and asked whether its leaf permits an action on a resource. -/
namespace VaidSuite.Python.Mcp

structure HopResult where
  vaidId : PyValue
  role : PyStr
  authentic : Bool
  reason : PyStr

structure ChainVerifyResult where
  verdict : ChainVerification
  plainReason : PyStr
  hops : List HopResult
  trustSource : PyStr
  trustThumbprints : List PyStr

/-- The trust set that a chain is checked against. -/
structure ResolvedKeys where
  resolver : KernelKeyResolver
  thumbprints : List PyStr
  source : PyStr

/-- `_VERDICT_EXPLANATIONS`. -/
def verdictExplanation : ChainVerification → PyStr
  | .attenuated => py ("Every document in the chain is genuinely signed, each child's authority " ++
      "fits entirely inside its parent's, and nothing in the chain has expired.")
  | .inauthentic => py ("At least one document's signature does not check out against the trusted " ++
      "key(s) supplied — either it was tampered with, or it was signed by a key " ++
      "this check was not told to trust.")
  | .unverifiable => py ("The chain cannot be followed all the way to a root: a document further up " ++
      "the delegation chain was not included in what was pasted, or the chain " ++
      "loops back on itself. This is 'cannot tell', not 'denied' — paste the " ++
      "missing ancestor(s) and try again.")
  | .notAttenuated => py ("The chain is genuine and complete, but somewhere in it a child claims " ++
      "authority (scope, capabilities, tenant, or expiry) that its parent did " ++
      "not actually hold. That is scope widening, and it is denied.")
  | .expired => py ("The chain is genuine and every hop fits inside the one above it, but an " ++
      "ancestor further up the chain has already passed its own expiry. The " ++
      "authority at the top of the chain has lapsed, even though nothing was " ++
      "forged.")
  | .consentExpired => py ("A hop that crosses from one signing key to another needs the first key's " ++
      "explicit, time-bound consent to the second. That consent is genuine but " ++
      "is no longer within its own validity window — it needs renewing.")

def asDict : PyValue → Option Dict
  | .obj members => some members
  | _ => none

/-- `parse_chain`. Only an absent `ancestors` stands for none. -/
def parseChain (chain : PyValue) : Raises (Dict × List Dict) :=
  match chain with
  | .obj members =>
    match members.lookup (py "leaf") with
    | none => .error (.chainFormat
        (py "expected an object shaped \x7b\"leaf\": \x7b...\x7d, \"ancestors\": [...]\x7d"))
    | some (.obj leaf) =>
      match members.lookup (py "ancestors") with
      | none => .ok (leaf, [])
      | some (.arr ancestors) =>
        match ancestors.mapM asDict with
        | some ancestors => .ok (leaf, ancestors)
        | none => .error (.chainFormat
            (py "\"ancestors\", if present, must be a list of VAID document objects"))
      | some _ => .error (.chainFormat
          (py "\"ancestors\", if present, must be a list of VAID document objects"))
    | some _ => .error (.chainFormat (py "\"leaf\" must be a VAID document object"))
  | _ => .error (.chainFormat
      (py "expected an object shaped \x7b\"leaf\": \x7b...\x7d, \"ancestors\": [...]\x7d"))

variable [Libraries]

def describe (keys : ResolvedKeys) (now : UtcDatetime) (role : PyStr) (doc : Dict) :
    Raises HopResult := do
  match ← keys.resolver (doc.get "kernel_key_thumbprint") with
  | none => return ⟨doc.get "vaid_id", role, false, py "signed by a key not in the trusted set"⟩
  | some key =>
    if !(← verifyVaidAuthenticity key doc) then
      return ⟨doc.get "vaid_id", role, false, py "signature does not match the trusted key"⟩
    if ← isExpiredAt doc now then
      return ⟨doc.get "vaid_id", role, true, py "signature valid, but this document has expired"⟩
    return ⟨doc.get "vaid_id", role, true, py "signature valid and current"⟩

/-- `verify_chain_result`. The hops are described beside the verdict, which they do not
change. -/
def verifyChainResult (chain : PyValue) (keys : ResolvedKeys) (now : Option UtcDatetime)
    (clock : UtcDatetime) : Raises ChainVerifyResult := do
  let (leaf, ancestors) ← parseChain chain
  let bundle ← PresentedBundle.new ancestors
  let verdict ← verifyChainAt keys.resolver leaf bundle .empty (now.getD clock)
  let leafHop ← describe keys (now.getD clock) (py "leaf") leaf
  let ancestorHops ← bundle.documents.mapM (describe keys (now.getD clock) (py "ancestor"))
  return ⟨verdict, verdictExplanation verdict, leafHop :: ancestorHops, keys.source,
    keys.thumbprints⟩

structure ScopeCheckResult where
  chainResult : ChainVerifyResult
  answerable : Bool
  permitted : Option Bool
  reason : PyStr

/-- What the leaf lacks for the request. -/
def missing (requestedAction resource : PyStr) (hasCap inScope : Bool) : List PyStr :=
  (if hasCap then [] else
    [py "does not hold the capability \"" ++ requestedAction ++ py "\""]) ++
  (if inScope then [] else
    [py "does not have \"" ++ resource ++ py "\" within its scope boundary"])

/-- `check_scope`. A chain that does not verify leaves the question unanswered. -/
def checkScope (chain : PyValue) (keys : ResolvedKeys) (requestedAction resource : PyStr)
    (now : Option UtcDatetime) (clock : UtcDatetime) : Raises ScopeCheckResult := do
  let chainResult ← verifyChainResult chain keys now clock
  if chainResult.verdict ≠ .attenuated then
    return ⟨chainResult, false, none,
      py "cannot determine permission: the chain itself did not verify (" ++
        chainVerdictValue chainResult.verdict ++ py ") — " ++ chainResult.plainReason⟩
  let (leaf, _) ← parseChain chain
  let hasCap := hasCapability leaf requestedAction
  let inScope ← isInScope leaf resource
  if hasCap && inScope then
    return ⟨chainResult, true, some true,
      py "the chain is genuine and the leaf credential holds the \"" ++ requestedAction ++
        py "\" capability, which covers \"" ++ resource ++ py "\""⟩
  return ⟨chainResult, true, some false, py "the chain is genuine, but the leaf credential " ++
    (py " and ").intercalate (missing requestedAction resource hasCap inScope)⟩

end VaidSuite.Python.Mcp
