import VaidSuite.MintTypes

/-! The payloads a holder signs with its own key: one for each request, and one for each
completed action. -/
namespace VaidSuite

structure RequestAuthPayload where
  vaidId : VaidId
  method : String
  path : String
  bodySha256 : String
  tenantId : String
  timestamp : Instant
  clientNonce : String

def RequestAuthPayload.toJson [Chrono] (p : RequestAuthPayload) : Json String :=
  .object [("vaidId", .str (toString p.vaidId)),
    ("method", .str p.method),
    ("path", .str p.path),
    ("bodySha256", .str p.bodySha256),
    ("tenantId", .str p.tenantId),
    ("timestamp", .str (Chrono.serialize p.timestamp)),
    ("clientNonce", .str p.clientNonce)]

/-- Declared by the signer, and not proven. -/
inductive AssuranceTier where
  | selfReported
  | counterSigned
  | thirdPartyAttested
  deriving DecidableEq, Repr

def AssuranceTier.value : AssuranceTier → String
  | .selfReported => "selfReported"
  | .counterSigned => "counterSigned"
  | .thirdPartyAttested => "thirdPartyAttested"

structure CompletionRecord where
  vaidId : VaidId
  requestDigestSha256 : String
  tenantId : String
  status : String
  resultSha256 : String
  completedAt : Instant
  signerVaidId : VaidId
  assuranceTier : AssuranceTier
  recordNonce : String

def CompletionRecord.toJson [Chrono] (r : CompletionRecord) : Json String :=
  .object [("vaidId", .str (toString r.vaidId)),
    ("requestDigestSha256", .str r.requestDigestSha256),
    ("tenantId", .str r.tenantId),
    ("status", .str r.status),
    ("resultSha256", .str r.resultSha256),
    ("completedAt", .str (Chrono.serialize r.completedAt)),
    ("signerVaidId", .str (toString r.signerVaidId)),
    ("assuranceTier", .str r.assuranceTier.value),
    ("recordNonce", .str r.recordNonce)]

end VaidSuite
