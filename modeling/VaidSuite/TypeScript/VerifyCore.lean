import VaidSuite.TypeScript.Envelope

/-! The verification core of the skill: the findings about an envelope, and the headline
derived from them. -/
namespace VaidSuite.TypeScript

inductive FindingState where
  | pass
  | fail
  | caveat
  | notChecked
  deriving DecidableEq

inductive Headline where
  | valid
  | validWithCaveats
  | expired
  | rejected
  | malformed
  deriving DecidableEq

/-- Outcome of one named check. -/
structure Finding where
  id : String
  label : String
  state : FindingState
  detail : JsStr

structure VerifyResult where
  headline : Headline
  summary : String
  detail : Option JsStr
  findings : List Finding
  vaid : Option Members
  chain : List Members
  presentedBare : Bool

structure AnchorEntry where
  key : Bytes
  jwk : Members

abbrev Anchor := List (JsStr × AnchorEntry)

def revocationFinding : Finding where
  id := "revocation"
  label := "Revocation"
  state := .notChecked
  detail := js ("NOT CHECKED, and this verifier cannot check it. There is no published revocation " ++
    "list to consult — the open reference mint's revocation list is in-memory and does not " ++
    "survive its own process. A VAID that passes every check above may still have been revoked " ++
    "by its issuer, and nothing here would show it. Treat this verdict as \"genuinely issued and " ++
    "in date\", never as \"currently authorised\".")

def unknownKeyFinding (claimedTp : JsValue) : Finding where
  id := "key"
  label := "Signing key"
  state := .fail
  detail := match claimedTp with
    | .str thumbprint => js "The document names kernel key " ++ thumbprint ++
        js (", which is not in this verifier's trust anchor. It may be perfectly genuine — " ++
          "signed by someone this page does not vouch for. Refusing rather than guessing.")
    | _ => js ("The document names no kernel key (no `kernel_key_thumbprint`), so there is " ++
        "nothing to look up. Documents minted before ADR-0034 omit this field and cannot be " ++
        "matched to a published key.")

def chainFinding (result : ChainVerification) (depth : Nat) : Finding :=
  let presented := js (toString depth ++ " ancestor document" ++ (if depth = 1 then "" else "s") ++
    " presented")
  let failed (detail : JsStr) : Finding := ⟨"attenuation", "Delegation chain", .fail, detail⟩
  match result with
  | .attenuated => ⟨"attenuation", "Delegation chain", .pass, presented ++
      js (". Every document is authentic, the chain assembles to a root, and authority is " ++
        "contained at every hop: scope and capabilities never widen going down the chain.")⟩
  | .inauthentic => failed (presented ++
      js (", but one of them — or the leaf — failed signature verification. Nothing further " ++
        "was checked."))
  | .unverifiable => failed (presented ++
      js (", but the chain does not assemble: an ancestor named by a signed `parent_vaid` was " ++
        "not presented, or assembly hit a cycle or the depth bound. This means attenuation is " ++
        "UNVERIFIABLE — never that it is satisfied."))
  | .notAttenuated => failed (presented ++
      js (". The chain is complete and authentic, but a child claims authority its parent does " ++
        "not hold. This is a delegation that escalates rather than narrows."))
  | .consentExpired => failed (presented ++
      js (". A hop crossing kernel keys carries a consent attestation that is authentic but " ++
        "outside its validity window. The parent really did consent; the consent has lapsed " ++
        "and needs renewing."))
  | .expired => failed (js "Unrecognised chain result: " ++ chainVerdictValue .expired)

def authenticityFinding (authentic : Bool) : Finding where
  id := "authenticity"
  label := "Signature"
  state := if authentic then .pass else .fail
  detail := if authentic then
      js ("The Ed25519 signature is valid over the canonical document, and `lineage_hash` is " ++
        "internally consistent. Every signed field is exactly as issued.")
    else js ("The signature does not verify under the named key. The document has been altered " ++
      "since it was signed, or it was never signed by that key.")

def unpresentedParentFinding : Finding where
  id := "attenuation"
  label := "Delegated authority"
  state := .caveat
  detail := js ("This VAID names a parent, but no ancestor documents were presented alongside it, " ++
    "so there is no way to confirm its authority is contained within its parent's. Attenuation " ++
    "is UNVERIFIABLE here — which is not the same as satisfied. Ask the sender to present the " ++
    "full chain.")

section Details

variable [Runtime]

/-- Where the accepted key came from. -/
def provenance (jwk : Members) : Throws JsStr := do
  if (jwk.get "$local").strictEq (.bool true) then
    return js ("Signed under a kernel key YOU supplied out of band, not one published by us. Its " ++
      "thumbprint was recomputed from the key itself before it was accepted, so it cannot have " ++
      "been filed under a thumbprint that is not its own — but whether that key is really the " ++
      "sender's is your judgement, resting on the channel you got it from.")
  let keyId := jwk.get "key_id"
  let deployment := jwk.get "deployment"
  let opened ← if keyId.truthy then do pure (js " (" ++ (← template keyId)) else pure []
  let named ← if keyId.truthy && deployment.truthy then do pure (js ", " ++ (← template deployment))
    else pure []
  let closed := if keyId.truthy then js ")" else []
  return js "Signed under a kernel key published in the trust anchor" ++ opened ++ named ++ closed ++
    js (". That key's thumbprint was recomputed from the key itself, not taken on the " ++
      "document's word.")

def expiryFinding (vaid : Members) (now : Int) : Throws Finding := do
  let expiresAt ← template (vaid.get "expires_at")
  if isExpired vaid now then
    return ⟨"expiry", "Validity window", .fail, js "Expired at " ++ expiresAt ++
      js ". The document is genuine; it is no longer in date."⟩
  else
    return ⟨"expiry", "Validity window", .pass, js "In date until " ++ expiresAt ++ js "."⟩

def issuerFinding (vaid : Members) : Throws Finding := do
  let td ← template (vaid.get "trust_domain")
  if isSpecialUseTrustDomain (vaid.get "trust_domain") then
    return ⟨"issuer", "Issuer identity", .caveat, js "`trust_domain` is `" ++ td ++
      js ("`, an RFC 6761 special-use name. It is the deliberate default for a deployment whose " ++
        "issuer identity has not been configured, so that being unconfigured is VISIBLE rather " ++
        "than quietly claiming a real one. A conforming verifier SHOULD NOT bind a trust bundle " ++
        "to such a name. The signature is established; WHO the issuer is, as a named party, is " ++
        "not.")⟩
  else
    return ⟨"issuer", "Issuer identity", .pass, js "Issued under trust domain `" ++ td ++ js "`."⟩

end Details

/-- The headline and its summary. Expiry alone is its own headline. -/
def headlineOf (findings : List Finding) : Headline × String :=
  let failed := findings.filter (fun f => f.state = .fail)
  let caveats := findings.filter (fun f => f.state = .caveat)
  match failed with
  | [] =>
    if caveats.isEmpty then (.valid, "Genuine and in date.")
    else (.validWithCaveats, "Genuine and in date, with caveats.")
  | f :: others =>
    if others.isEmpty && f.id == "expiry" then (.expired, "Genuine, but expired.")
    else (.rejected,
      if f.id == "key" then "Signed by a key this verifier does not accept." else "Not accepted.")

/-- Revocation is among the findings of every verdict. -/
def assemble (findings : List Finding) (parsed : Parsed) : VerifyResult :=
  let findings :=
    if findings.any (fun f => f.id == "revocation") then findings
    else findings ++ [revocationFinding]
  ⟨(headlineOf findings).1, (headlineOf findings).2, none, findings, some parsed.vaid,
    parsed.chain, parsed.bare⟩

variable [Runtime]

/-- The chain verdict of an envelope with ancestors, under the one key of its leaf. -/
def chainResult (key : Bytes) (parsed : Parsed) (now : Int) : Throws ChainVerification := do
  let keys ← KernelKeyMap.new [key]
  let bundle ← PresentedBundle.new (parsed.chain.map .obj)
  verifyChainAt keys (.obj parsed.vaid) bundle AttestationBundle.empty now

/-- The findings of the second step, and whether the later steps are made. -/
def authorityFindings (key : Bytes) (parsed : Parsed) (now : Int) :
    Throws (List Finding × Bool) := do
  if parsed.chain.isEmpty then
    if ← verifyVaidAuthenticity key (.obj parsed.vaid) then
      let delegated := (parsed.vaid.get "parent_vaid").truthy
      return (authenticityFinding true :: if delegated then [unpresentedParentFinding] else [], true)
    else return ([authenticityFinding false], false)
  else
    let result ← chainResult key parsed now
    return ([chainFinding result parsed.chain.length], decide (result = .attenuated))

/-- The rest of `verifyEnvelope`, for an envelope that was parsed. -/
def verifyParsed (parsed : Parsed) (anchor : Anchor) (now : Int) : Throws VerifyResult := do
  let claimedTp := parsed.vaid.get "kernel_key_thumbprint"
  match claimedTp.asStr.bind (fun tp => anchor.lookup tp) with
  | none => return assemble [unknownKeyFinding claimedTp] parsed
  | some entry =>
    let key : Finding := ⟨"key", "Signing key", .pass, ← provenance entry.jwk⟩
    let (authority, goOn) ← authorityFindings entry.key parsed now
    if !goOn then return assemble (key :: authority) parsed
    let expiry ← expiryFinding parsed.vaid now
    let issuer ← issuerFinding parsed.vaid
    return assemble (key :: authority ++ [expiry, issuer, revocationFinding]) parsed

def verifyEnvelope (input : JsStr) (anchor : Anchor) (now : Int) : Throws VerifyResult :=
  match parseEnvelope input with
  | .error message => .ok ⟨.malformed, "Not a VAID.", some message, [], none, [], false⟩
  | .ok parsed => verifyParsed parsed anchor now

end VaidSuite.TypeScript
