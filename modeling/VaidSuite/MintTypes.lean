import VaidSuite.Document
import VaidSuite.Lib.Program

/-! The mint's errors and wire types, and the payload a holder signs to prove
possession of the key it registers. -/
namespace VaidSuite

inductive MintError where
  | unauthorized (message : String)
  | identity (message : String)
  | audit (message : String)
  | lineage (message : String)
  | config (message : String)
  deriving DecidableEq, Repr

/-- How a call of the mint or the issuer ends. -/
abbrev MintResult (α : Type) := Outcome MintError α

/-- Requested attributes of a mint. -/
structure VaidSeed where
  agentClass : String
  version : String
  tenantId : String
  parentVaid : Option VaidId
  scopeBoundary : List ScopeBoundaryEntry
  capabilitySet : List String
  publicKeyDer : Option Bytes

/-- A holder's proof-of-possession. -/
structure MintPop where
  nonce : String
  issuedAt : Instant
  signature : Bytes

structure MintVaidRequest where
  seed : VaidSeed
  pop : Option MintPop

structure MintVaidResponse where
  vaid : Vaid
  expiryBoundedByParent : Bool
  parentExpiresAt : Option String

/-- The payload a holder signs: the key it registers with every requested
attribute and the freshness material. -/
structure MintPopPayload where
  publicKeyDer : Bytes
  tenantId : String
  agentClass : String
  version : String
  parentVaid : Option VaidId
  scopeBoundary : List ScopeBoundaryEntry
  capabilitySet : List String
  nonce : String
  issuedAt : Instant

def VaidSeed.popPayload (seed : VaidSeed) (publicKeyDer : Bytes) (nonce : String)
    (issuedAt : Instant) : MintPopPayload where
  publicKeyDer := publicKeyDer
  tenantId := seed.tenantId
  agentClass := seed.agentClass
  version := seed.version
  parentVaid := seed.parentVaid
  scopeBoundary := seed.scopeBoundary
  capabilitySet := seed.capabilitySet
  nonce := nonce
  issuedAt := issuedAt

def vaidIdJson : Option VaidId → Json String
  | none => .null
  | some id => .str (toString id)

def MintPopPayload.toJson [Chrono] (p : MintPopPayload) : Json String :=
  .object [("publicKeyDer", .ofBytes p.publicKeyDer),
    ("tenantId", .str p.tenantId),
    ("agentClass", .str p.agentClass),
    ("version", .str p.version),
    ("parentVaid", vaidIdJson p.parentVaid),
    ("scopeBoundary", .arr (p.scopeBoundary.map ScopeBoundaryEntry.toJson)),
    ("capabilitySet", .arr (p.capabilitySet.map .str)),
    ("nonce", .str p.nonce),
    ("issuedAt", .str (Chrono.serialize p.issuedAt))]

section Crypto

variable [Crypto]

def canonicalRequestSigningBytes (payload : Json String) : Bytes :=
  Crypto.sha256 (Crypto.jcs payload)

def signPayload (payload : Json String) (keyPair : Ed25519KeyPair) : Bytes :=
  Crypto.sign keyPair (canonicalRequestSigningBytes payload)

def verifySignedPayload (payload : Json String) (publicKeyDer signature : Bytes) : Bool :=
  Crypto.ed25519Verify publicKeyDer (canonicalRequestSigningBytes payload) signature

theorem verifySignedPayload_signPayload (verify : Crypto.SignaturesVerify) (payload : Json String)
    (keyPair : Ed25519KeyPair) :
    verifySignedPayload payload (Crypto.publicKey keyPair) (signPayload payload keyPair) = true :=
  verify keyPair _

end Crypto

end VaidSuite
