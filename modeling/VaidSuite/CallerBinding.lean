import VaidSuite.FromJson

/-! Standing bound to a caller: the document must be who presents it. -/
namespace VaidSuite

/-- What the caller claims to be. A field that is not given is not checked. -/
structure ExpectedCaller (σ : Type) where
  agentId : Option σ
  agentClass : Option σ
  tenantId : Option σ

namespace ExpectedCaller

def none {σ : Type} : ExpectedCaller σ := ⟨.none, .none, .none⟩

def map {σ τ : Type} (spell : σ → τ) (expected : ExpectedCaller σ) : ExpectedCaller τ :=
  ⟨expected.agentId.map spell, expected.agentClass.map spell, expected.tenantId.map spell⟩

/-- `matches`, in Rust. -/
def matchesVaid (expected : ExpectedCaller String) (vaid : Vaid) : Bool :=
  expected.agentId.all (fun e => e == toString vaid.agentId) &&
    expected.agentClass.all (fun e => e == vaid.agentClass.asStr) &&
    expected.tenantId.all (fun e => e == vaid.tenantId.asStr)

end ExpectedCaller

/-- The document is valid, but it is not the caller's. -/
structure CallerMismatchError where
  deriving DecidableEq

/-- A caller is compared with a document that is valid otherwise. -/
def boundVerdict (verdict : VaidVerdict) (isCaller : Bool) : Except CallerMismatchError VaidVerdict :=
  if verdict.isValid && !isCaller then .error ⟨⟩ else .ok verdict

section Rust

variable [Crypto] [Chrono]

def verifyVaidStandingBound (kernelPublicKey : Bytes) (vaid : Vaid) (revocation : RevocationStatus)
    (expected : ExpectedCaller String) (now : Instant) : Except CallerMismatchError VaidVerdict :=
  boundVerdict (verifyVaidStanding kernelPublicKey vaid revocation now) (expected.matchesVaid vaid)

def verifyVaidStandingBoundFromJson [SerdeJson] (kernelPublicKey : Bytes) (documentJson : String)
    (revocation : RevocationStatus) (expected : ExpectedCaller String) (now : Instant) :
    Except CallerMismatchError VaidVerdict :=
  if hasDuplicateMemberNames documentJson then .ok .unparseable
  else match SerdeJson.fromStr documentJson with
    | some vaid => verifyVaidStandingBound kernelPublicKey vaid revocation expected now
    | none => .ok .unparseable

end Rust

end VaidSuite
