import VaidSuite.CallerBinding
import VaidSuite.TypeScript.FromJson

/-! The TypeScript mirror of standing, and of standing bound to a caller. A `CallerMismatchError` is
a result here, as it is in Rust. -/
namespace VaidSuite.TypeScript

def expectedCallerMatches (expected : ExpectedCaller JsStr) (vaid : Members) : Bool :=
  expected.agentId.all (fun e => (JsValue.str e).strictEq (vaid.get "agent_id")) &&
    expected.agentClass.all (fun e => (JsValue.str e).strictEq (vaid.get "agent_class")) &&
    expected.tenantId.all (fun e => (JsValue.str e).strictEq (vaid.get "tenant_id"))

variable [Runtime]

/-- Authenticity, then expiry, then readable scope kinds, then the revocation status that the
caller found. Only an object is authentic. -/
def verifyVaidStanding (kernelPublicKey : Bytes) (vaid : JsValue) (revocation : RevocationStatus)
    (now : Int) : Throws VaidVerdict := do
  let authenticity ← verifyVaidAuthenticityGraded kernelPublicKey vaid
  if !authenticity.isValid then return authenticity
  let vaid ← requireVaidShape vaid "vaid"
  if isExpired vaid now then return .expired
  match vaid.get "scope_boundary" with
  | .arr scopeBoundary =>
    if !(← boundaryIsEvaluable (.arr scopeBoundary)) then return .unknownScopeKind
    return .ofRevocation revocation
  | _ => throw (.malformedDocument (js "vaid.scope_boundary is missing or not an array"))

/-- What is malformed is reported as unparseable. -/
def verifyVaidStandingBound (kernelPublicKey : Bytes) (vaid : JsValue) (revocation : RevocationStatus)
    (expected : ExpectedCaller JsStr) (now : Int) : Throws (Except CallerMismatchError VaidVerdict) :=
  match verifyVaidStanding kernelPublicKey vaid revocation now with
  | .ok verdict => do
    if !verdict.isValid then return .ok verdict
    let vaid ← requireVaidShape vaid "vaid"
    return boundVerdict verdict (expectedCallerMatches expected vaid)
  | .error (.malformedDocument _) => .ok (.ok .unparseable)
  | .error e => .error e

def verifyVaidStandingBoundFromJson (kernelPublicKey : Bytes) (documentJson : JsStr)
    (revocation : RevocationStatus) (expected : ExpectedCaller JsStr) (now : Int) :
    Throws (Except CallerMismatchError VaidVerdict) :=
  match parseVaidDocument documentJson with
  | some document =>
    verifyVaidStandingBound kernelPublicKey (.obj document) revocation expected now
  | none => .ok (.ok .unparseable)

end VaidSuite.TypeScript
