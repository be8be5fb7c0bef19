import VaidSuite.TypeScript.CanonicalJson
import VaidSuite.TypeScript.VerifyCore

/-! The offline verifier of an evidence bundle: the checks over a parsed bundle, the finding
of each, and the exit code that they are made into. -/
namespace VaidSuite.TypeScript.EvidenceBundle

/-- What the script takes from Node besides what the packages take. -/
class Host extends Runtime where
  /-- `new Uint8Array(Buffer.from(s, 'base64url'))`. `none` when it throws. -/
  unb64u : JsStr → Option Bytes
  /-- `date.toISOString()`, of milliseconds since 1970. -/
  toISOString : Int → JsStr
  /-- `e.message`. -/
  messageOf : JsException → JsStr

def bundleVersion : JsStr := js "evidence-bundle/v1"

def required : List String :=
  ["version", "scope", "tenant_id", "generated_at", "actor", "delegation_chain", "decisions",
    "audit_entries", "content_hash", "signature"]

/-- The other names under which a field is read. -/
def aliases : List (String × List String) :=
  [("tenant_id", ["tenantId"]), ("generated_at", ["generatedAt"]),
    ("delegation_chain", ["delegationChain"]), ("audit_entries", ["auditEntries"]),
    ("content_hash", ["contentHash"]), ("policy_version", ["policyVersion"])]

structure Found where
  key : String
  value : JsValue

/-- Resolve one documented field: its own name first, then the other ones. -/
def field (bundle : Members) (name : String) : Option Found :=
  (name :: (aliases.lookup name).getD []).findSome? (fun key =>
    (bundle.lookup (js key)).map (fun value => ⟨key, value⟩))

/-- `field(bundle, name).value`, of a field that is there. -/
def valueOf (bundle : Members) (name : String) : JsValue :=
  ((field bundle name).map Found.value).getD .undefined

/-- `v.key`, of a value that may be no object. -/
def memberOf (v : JsValue) (key : String) : JsValue :=
  match v with
  | .obj members => Members.get members key
  | _ => .undefined

structure BundleResult where
  malformed : Bool
  missing : List String
  findings : List Finding

def joinWith (separator : String) (texts : List JsStr) : JsStr := (js separator).intercalate texts

/-- `JSON.stringify(v)` in a template literal. -/
def shown (v : JsValue) : JsStr := unitsOf ((stringify v).getD (JsonText.codes "undefined"))

/-- `JSON.stringify(v)` as a `TextEncoder` takes it, to which `undefined` is the empty text. -/
def encodable (v : JsValue) : JsStr := unitsOf ((stringify v).getD [])

def plural (n : Nat) (one more : String) : JsStr := js (if n = 1 then one else more)

def shapeFinding (state : FindingState) (detail : JsStr) : Finding :=
  ⟨"shape", "Bundle shape", state, detail⟩

/-- The result of a bundle whose checks cannot be made. -/
def malformedBundle (missing : List String) (detail : JsStr) : BundleResult :=
  ⟨true, missing, [shapeFinding .fail detail]⟩

def signatureProblems (signature : JsValue) : List JsStr :=
  match signature with
  | .obj _ | .arr _ =>
    let alg := memberOf signature "alg"
    (if (memberOf signature "sig_b64").asStr.isSome then []
      else [js "signature.sig_b64 is not a string"]) ++
    if alg.strictEq .undefined || alg.strictEq (.str (js "ed25519")) then []
    else [js "signature.alg is " ++ shown alg ++ js ", and only \"ed25519\" is implemented"]
  | _ => [js "signature is not an object"]

def isArray : JsValue → Bool
  | .arr _ => true
  | _ => false

def shapeProblems (bundle : Members) : List JsStr :=
  let problem (fine : Bool) (text : String) : List JsStr := if fine then [] else [js text]
  problem (isArray (valueOf bundle "delegation_chain")) "delegation_chain is not an array" ++
    problem (isArray (valueOf bundle "decisions")) "decisions is not an array" ++
    problem (isArray (valueOf bundle "audit_entries")) "audit_entries is not an array" ++
    problem (valueOf bundle "content_hash").asStr.isSome "content_hash is not a string" ++
    signatureProblems (valueOf bundle "signature")

/-- `v.length` and the elements, of a value that was found to be an array. -/
def itemsOf : JsValue → List JsValue
  | .arr items => items
  | _ => []

def strippedNames : List JsStr := [js "content_hash", js "contentHash", js "signature"]

/-- What is hashed: the bundle without the members that the script takes out of it. -/
def signedPart (bundle : Members) : Members := bundle.filter (fun m => !strippedNames.contains m.1)

def canonical (bundle : Members) : JsonText.Text := (canonicalJson (.obj (signedPart bundle))).getD []

def utf8 (t : JsonText.Text) : Bytes := encode (unitsOf t)

/-- `s.toLowerCase()`, as far as a comparison with hexadecimal digits tells: no letter beyond
ASCII has one of them for its lower case. -/
def toLowerCase (s : JsStr) : JsStr :=
  s.map (fun c => if 0x41 ≤ c.val ∧ c.val ≤ 0x5a then Fin.ofNat 0x10000 (c.val + 0x20) else c)

variable [Host]

def sha256Hex (bytes : Bytes) : JsStr := js (lowerHex (Runtime.sha256 bytes))

def recomputed (bundle : Members) : JsStr := sha256Hex (utf8 (canonical bundle))

omit [Host] in
def claimedHash (bundle : Members) : JsStr := (valueOf bundle "content_hash").asStr.getD []

def hashMatches (bundle : Members) : Bool := recomputed bundle == toLowerCase (claimedHash bundle)

def contentHashFinding (bundle : Members) : Finding :=
  let recomputed := recomputed bundle
  let claimed := claimedHash bundle
  if hashMatches bundle then
    ⟨"content_hash", "Content hash", .pass, js "recomputed over " ++
      js (toString (canonical bundle).length) ++ js " canonical bytes and it matches: " ++ recomputed ++
      js (". Every field of the bundle except content_hash and signature is exactly as hashed.")⟩
  else
    ⟨"content_hash", "Content hash", .fail,
      js "MISMATCH. The bundle has been altered since it was hashed.\n        claimed:    " ++ claimed ++
      js "\n        recomputed: " ++ recomputed ++
      js ("\n        Reproduce by hand:  jq -S -c 'del(.content_hash, .signature)' <bundle> " ++
        "| tr -d '\\n' | shasum -a 256")⟩

/-! ### The kernel key -/

/-- What a publication of the kernel key gave: a key, from a path or an address and in a
shape, or the reason why there is none. -/
inductive KeyAnswer where
  | found (key : Bytes) (shape place : JsStr)
  | failed (error : JsStr)
  | absent

namespace KeyAnswer

def key : KeyAnswer → Option Bytes
  | found key _ _ => some key
  | _ => none

def place : KeyAnswer → Option JsStr
  | found _ _ place => some place
  | _ => none

end KeyAnswer

/-- The options of a run. An instant that is no valid date is `none`. -/
structure Options where
  pinnedKey : Option JsStr
  siteKeyUrl : Option JsStr
  kernelUrl : Option JsStr
  trustAnchor : Option JsStr
  atInstant : Option (Option Int)

inductive AnchorOutcome where
  | notLoaded (message : JsStr)
  | refused (message : JsStr)
  | loaded (anchor : Anchor)

/-- What a run takes from outside: the answers of the three publications, the trust anchor,
the clock, the directories of the script and whether its output has colours. -/
structure Session where
  pinned : KeyAnswer
  site : KeyAnswer
  live : KeyAnswer
  anchor : AnchorOutcome
  now : Int
  pinnedDir : JsStr
  defaultAnchor : JsStr
  tty : Bool

def uabSiteKeyUrlDefault : JsStr :=
  js "https://uab-490941277903.europe-west1.run.app/kernel-key.json"

structure KeySource where
  id : String
  gating : Bool
  place : JsStr
  got : KeyAnswer

/-- The live endpoint is asked only where an address is given. -/
def liveAnswer (session : Session) (opts : Options) : KeyAnswer :=
  if (opts.kernelUrl.getD []).isEmpty then .absent else session.live

def sources (session : Session) (opts : Options) : List KeySource :=
  [⟨"pinned", true, (session.pinned.place.or opts.pinnedKey).getD session.pinnedDir, session.pinned⟩,
    ⟨"site", true, session.site.place.getD uabSiteKeyUrlDefault, session.site⟩,
    ⟨"live", false, opts.kernelUrl.getD (js "(not requested)"), liveAnswer session opts⟩]

/-- RFC 7638, as an RFC 9278 URI. -/
def ed25519Thumbprint (key : Bytes) : JsStr :=
  thumbprintUriPrefix ++ b64url (Runtime.sha256
    (encode (js "\x7b\"crv\":\"Ed25519\",\"kty\":\"OKP\",\"x\":\"" ++ b64url key ++ js "\"\x7d")))

abbrev Answered := KeySource × Bytes

def answered (sources : List KeySource) : List Answered :=
  sources.filterMap (fun s => s.got.key.map (fun key => (s, key)))

def agrees (a b : Answered) : Bool :=
  a.2 == b.2 && ed25519Thumbprint a.2 == ed25519Thumbprint b.2

omit [Host] in
/-- `s.id.padEnd(6)`. -/
def padded (s : KeySource) : JsStr := js s.id ++ List.replicate (6 - s.id.length) 0x20

def answeredLine (a : Answered) : JsStr :=
  let shape := match a.1.got with
    | .found _ (c :: shape) _ => js "  (" ++ (c :: shape) ++ js ")"
    | _ => []
  js "        " ++ padded a.1 ++ js " " ++ a.1.place ++ js "\n               " ++
    ed25519Thumbprint a.2 ++ shape

omit [Host] in
def whyNot (s : KeySource) : JsStr :=
  match s.got with
  | .absent =>
    if s.id == "live" then
      js ("not requested (no --kernel-url). EXPECTED: the substrate stays behind Cloud Run IAM by " ++
        "design, so an external auditor cannot reach it. This is not a degraded run.")
    else js "no key"
  | .failed error => error
  | .found _ _ _ => js "no key"

omit [Host] in
def silentLine (s : KeySource) : JsStr := js "        " ++ padded s ++ js " " ++ whyNot s

def answeredLines (sources : List KeySource) : JsStr :=
  joinWith "\n" ((answered sources).map answeredLine)

omit [Host] in
def silentLines (sources : List KeySource) : JsStr :=
  joinWith "\n" ((sources.filter (fun s => s.got.key.isNone)).map silentLine)

omit [Host] in
/-- The key that the sources vouch for, and the finding about it. -/
structure KeyDecision where
  trusted : Option Bytes
  finding : Finding

def gatingAnswered (sources : List KeySource) : List Answered :=
  (answered sources).filter (fun a => a.1.gating)

def keyFinding (state : FindingState) (detail : JsStr) : Finding :=
  ⟨"key_crosscheck", "Kernel key cross-check", state, detail⟩

def disagreement (sources : List KeySource) : Finding :=
  keyFinding .fail (js "SOURCES DISAGREE ABOUT THE SIGNING KEY. Refusing to pick one.\n" ++
    answeredLines sources ++
    js ("\n        No signature check was performed under any of these keys. There is no majority " ++
      "vote: either a key was rotated and one publication is stale, or one of them is serving a " ++
      "key nobody reviewed. Which is which is a human decision, not this script's.") ++
    if sources.all (fun s => s.got.key.isSome) then []
    else js "\n        Did not answer:\n" ++ silentLines sources)

def agreement (sources : List KeySource) : Finding :=
  let live := sources.filter (fun s => s.id == "live")
  keyFinding .pass (js "TWO INDEPENDENT STATIC PUBLICATIONS agree on the signing key.\n" ++
    answeredLines sources ++
    js ("\n        The key was NOT taken from inside the bundle being verified. A producer able to " ++
      "re-sign a tampered bundle would also have to change a reviewed commit in this public repo " ++
      "AND the static asset deployed on the UAB site — two separate publishers.\n") ++
    if live.any (fun s => s.got.key.isSome) then
      js "        The live substrate endpoint was ALSO checked and agrees — a third, independent vote."
    else js "        The live substrate endpoint was NOT checked: " ++ (live.map whyNot).flatten)

def incomplete (sources : List KeySource) : Finding :=
  keyFinding .notChecked
    (js ("CROSS-CHECK INCOMPLETE — the two static publications were not both available, so they " ++
      "were never compared.\n        Answered:\n") ++ answeredLines sources ++
    js "\n        Missing (required for the cross-check):\n" ++
    joinWith "\n" ((sources.filter (fun s => s.gating && s.got.key.isNone)).map silentLine) ++
    js ("\n        The signature check below used the key above, so it still establishes that the " ++
      "bundle was signed by whoever holds that key — but NOT that that party is the Solara " ++
      "substrate, because only one publisher vouched for it. This is not a pass.") ++
    if sources.any (fun s => s.id == "live" && s.got.key.isSome) && 1 < (answered sources).length then
      js ("\n        The live endpoint agreed with the source above, which is reassuring and is " ++
        "still not the published cross-check: it is a source an external auditor cannot reach " ++
        "and cannot reproduce.")
    else [])

/-- Any disagreement stops. Otherwise the key is trusted, and the check has passed only where
both gating publications answered. -/
def keyDecision (sources : List KeySource) : KeyDecision :=
  match answered sources with
  | [] => ⟨none, keyFinding .notChecked
      (js "NO SOURCE yielded a key, so there is nothing to verify the signature with.\n" ++
        silentLines sources)⟩
  | first :: others =>
    if (first :: others).any (fun a => !agrees a first) then ⟨none, disagreement sources⟩
    else
      match gatingAnswered sources with
      | [a, _] => ⟨some a.2, agreement sources⟩
      | _ => ⟨some first.2, incomplete sources⟩

def signatureFinding (state : FindingState) (detail : JsStr) : Finding :=
  ⟨"signature", "Manifest signature", state, detail⟩

/-- The two messages that may have been signed. -/
def candidates (bundle : Members) : List (JsStr × Bytes) :=
  [(js "the 64-character lowercase hex content_hash string", encode (recomputed bundle)),
    (js "the 32 raw bytes of the content_hash", Runtime.sha256 (utf8 (canonical bundle)))]

def checkSignature (bundle : Members) (decision : KeyDecision) (crossChecked : Bool) :
    Throws Finding :=
  let signature := valueOf bundle "signature"
  let keyProvenance := js (if crossChecked then "the cross-checked kernel key"
    else "the ONLY available copy of the kernel key (cross-check incomplete — see above)")
  match decision.trusted with
  | none => .ok (signatureFinding .notChecked
      (js ("no kernel key was obtained (see above), so the signature was NOT verified. " ++
        "It is not invalid; it is unchecked, and those are different things.")))
  | some key =>
    if !hashMatches bundle then
      .ok (signatureFinding .notChecked
        (js ("SKIPPED because content_hash does not match the content. A valid signature over a " ++
          "hash that does not describe the bundle would be a true statement about nothing. Fix the " ++
          "content_hash failure first.")))
    else
      match Host.unb64u ((memberOf signature "sig_b64").asStr.getD []) with
      | none => .ok (signatureFinding .fail (js ("signature.sig_b64 decodes to un-decodable bytes; " ++
          "an Ed25519 signature is 64.")))
      | some sig =>
        if sig.length ≠ 64 then
          .ok (signatureFinding .fail (js "signature.sig_b64 decodes to " ++ js (toString sig.length) ++
            js " bytes; an Ed25519 signature is 64."))
        else
          match (candidates bundle).find? (fun c => Runtime.ed25519Verify sig c.2 key) with
          | some hit => do
            let keyId := memberOf signature "key_id"
            let named ← if keyId.truthy then
                do pure (js "        bundle names key_id " ++ (← template keyId) ++ js "\n")
              else pure []
            return signatureFinding .pass (js "Ed25519 signature verifies under " ++ keyProvenance ++
              js ", over " ++ hit.1 ++ js ".\n        key: " ++ ed25519Thumbprint key ++ js "\n" ++ named ++
              js ("        ASSUMPTION 1 at the top of this script: the signed message was not pinned by " ++
                "a published contract, so both candidates were tried and the one that verified is " ++
                "named above."))
          | none => .ok (signatureFinding .fail (js "the Ed25519 signature does NOT verify under " ++
              keyProvenance ++
              js (", over either candidate message (the hex content_hash string, or its 32 raw " ++
                "bytes). The bundle was not signed by the holder of that key, or the signature has " ++
                "been altered. key tried: ") ++ ed25519Thumbprint key ++ js "."))

/-! ### The delegation chain -/

def isLedgerReferenceEntry (entry : JsValue) : Bool :=
  match entry with
  | .obj members =>
    !(Members.get members "seq").strictEq .undefined &&
      (Members.get members "entry_hash").asStr.isSome &&
      (Members.get members "kernel_key_thumbprint").strictEq .undefined
  | _ => false

/-- The text that `verifyEnvelope` is given for an entry. -/
def envelopeInput (entry : JsValue) : JsStr := entry.asStr.getD (shown entry)

def headlineText : Headline → String
  | .valid => "VALID"
  | .validWithCaveats => "VALID_WITH_CAVEATS"
  | .expired => "EXPIRED"
  | .rejected => "REJECTED"
  | .malformed => "MALFORMED"

/-- Colour, where the output has colours. -/
def paint (tty : Bool) (code : String) (s : String) : JsStr :=
  if tty then js "\u001b[" ++ js code ++ js "m" ++ js s ++ js "\u001b[0m" else js s

/-- What the loop over the chain has come to. -/
structure Tally where
  lines : List JsStr
  failed : Nat
  caveated : Nat
  verified : Nat

def labelsOf (findings : List Finding) (state : FindingState) : JsStr :=
  joinWith ", " ((findings.filter (fun f => f.state = state)).map (fun f => js f.label))

/-- `${v ?? other}`. -/
def templateOr (v : JsValue) (other : String) : Throws JsStr := template (v.orElse (.str (js other)))

/-- One entry of the chain. A reference is noted, and nothing else is done with it. -/
def checkEntry (anchor : Anchor) (instant : Int) (tty : Bool) (i : Nat) (entry : JsValue) (tally : Tally) :
    Throws Tally :=
  let line (text : JsStr) : JsStr := js "        [" ++ js (toString i) ++ js "] " ++ text
  if isLedgerReferenceEntry entry then do
    let text := paint tty "2" "·" ++ js " NOT CHECKED — ledger reference, not a VAID envelope (vaid_id=" ++
      (← templateOr (memberOf entry "vaid_id") "(none)") ++ js ", seq=" ++
      (← template (memberOf entry "seq")) ++
      js "). Verify the real envelope against the VAID issuer, out of band."
    return { tally with lines := tally.lines ++ [line text] }
  else
    match verifyEnvelope (envelopeInput entry) anchor instant with
    | .error e => .ok { tally with
        failed := tally.failed + 1
        lines := tally.lines ++ [line (paint tty "31" "✗" ++ js " threw: " ++ Host.messageOf e)] }
    | .ok r => do
      let id ← templateOr ((r.vaid.map (fun vaid => vaid.get "vaid_id")).getD .undefined) "(no vaid_id)"
      match r.headline with
      | .valid =>
        let text := paint tty "32" "✓" ++ js " VALID  " ++ id
        return { tally with verified := tally.verified + 1, lines := tally.lines ++ [line text] }
      | .validWithCaveats =>
        let text := paint tty "33" "!" ++ js " VALID WITH CAVEATS (" ++ labelsOf r.findings .caveat ++
          js ")  " ++ id
        return { tally with
          verified := tally.verified + 1
          caveated := tally.caveated + 1
          lines := tally.lines ++ [line text] }
      | headline =>
        let why := labelsOf r.findings .fail
        let text := paint tty "31" "✗" ++ js " " ++ js (headlineText headline) ++
          (if why.isEmpty then [] else js " (" ++ why ++ js ")") ++ js "  " ++ id ++ js "  — " ++ js r.summary
        return { tally with
          verified := tally.verified + 1
          failed := tally.failed + 1
          lines := tally.lines ++ [line text] }

/-- The loop over the chain, from the entry at `i` on. -/
def checkEntries (anchor : Anchor) (instant : Int) (tty : Bool) :
    Nat → List JsValue → Tally → Throws Tally
  | _, [], tally => .ok tally
  | i, entry :: entries, tally => do
    checkEntries anchor instant tty (i + 1) entries (← checkEntry anchor instant tty i entry tally)

/-- A failure comes first, then a caveat, and only then what was not checked. -/
def tallyState (tally : Tally) (referenceCount : Nat) : FindingState :=
  if 0 < tally.failed then .fail
  else if 0 < tally.caveated then .caveat
  else if referenceCount = 0 then .pass
  else .notChecked

def chainFindingOf (state : FindingState) (detail : JsStr) : Finding :=
  ⟨"delegation", "Delegation chain", state, detail⟩

def emptyChainDetail (note : Option JsStr) : JsStr :=
  match note with
  | some (c :: note) =>
    js "NO raw VAID envelopes were exported, and the bundle says why: \"" ++ (c :: note) ++
      js ("\". That explanation is signed (it is covered by content_hash), so it is the exporter on " ++
        "the record rather than an unexplained gap — but the actor's authority is UNVERIFIED here, " ++
        "which is not the same as unconstrained and not the same as confirmed.")
  | _ =>
    js ("delegation_chain is EMPTY and there is no delegation_chain_note saying why. Nothing was " ++
      "verified and nothing explains the absence. An exporter that could not recover the lineage " ++
      "is required to say so in delegation_chain_note; a bundle with neither is indistinguishable " ++
      "from one whose chain was dropped.")

def onlyReferencesDetail (referenceCount : Nat) (note : Option JsStr) : JsStr :=
  js (toString referenceCount) ++
    js (" ledger reference(s), NOT VAID envelopes. The audit ledger does not record " ++
      "envelope bytes or the issuer's lineage_hash — only chain-position references — so there is " ++
      "nothing here for `verifyEnvelope` to check; running it anyway reports a wrong-entry-point FAIL " ++
      "that looks like a forged lineage and is not one. ") ++
    (match note with
    | some (c :: note) => js "delegation_chain_note: \"" ++ (c :: note) ++ js "\""
    | _ => js ("No delegation_chain_note explains this; a bundle whose chain is references with no " ++
        "note leaves an auditor unable to tell a documented limitation from a dropped explanation.")) ++
    js "\n        Verify the real envelopes against the VAID issuer, out of band, not against this bundle."

def notLoadedDetail (envelopes referenceCount : Nat) (message : JsStr) : JsStr :=
  js (toString envelopes) ++ js " envelope-shaped entr" ++ plural envelopes "y" "ies" ++
    js " present, NOT verified: the VAID verifier could not be loaded (" ++ message ++
    js ("). This script does not reimplement VAID chain verification — a fourth implementation with " ++
      "no conformance vector holding it in line would be worse than an honest gap. Install the SDK " ++
      "and re-run:  npm install --prefix skill") ++
    if referenceCount = 0 then []
    else js " (" ++ js (toString referenceCount) ++
      js " ledger reference(s) in this chain are not envelopes either way)"

def tallyDetail (session : Session) (opts : Options) (count referenceCount : Nat) (instant : Int)
    (tally : Tally) : JsStr :=
  js (toString count) ++ js " entr" ++ plural count "y" "ies" ++ js ": " ++
    js (toString tally.verified) ++
    js (" envelope-shaped, each verified with the same code `vaid verify` runs (verifyEnvelope from " ++
      "skill/src/verify-core.mjs), at ") ++ Host.toISOString instant ++ js ", against " ++
    opts.trustAnchor.getD session.defaultAnchor ++
    (if referenceCount = 0 then []
    else js "; " ++ js (toString referenceCount) ++ js " ledger reference(s), not checked (see lines below)") ++
    js ".\n" ++ joinWith "\n" tally.lines ++
    js ("\n        Revocation was NOT checked for any verified envelope, and cannot be: there is no " ++
      "published revocation list to consult. Read this as \"genuinely issued and in date\", never as " ++
      "\"currently authorised\".")

def evaluationInstant (session : Session) (opts : Options) (bundle : Members) : Throws Int := do
  let given ← match opts.atInstant with
    | some given => pure given
    | none => do pure (Runtime.dateParse (← template (valueOf bundle "generated_at")))
  return given.getD session.now

/-- Why the chain has no envelopes, as the bundle says. -/
def chainNote (bundle : Members) : Throws (Option JsStr) :=
  match field bundle "delegation_chain_note" with
  | some found => do return some (← template found.value)
  | none => .ok none

/-- Verify every VAID of the chain with the code that verifies one. -/
def delegationFinding (session : Session) (opts : Options) (bundle : Members) (chain : List JsValue) :
    Throws Finding := do
  let note ← chainNote bundle
  let referenceCount := (chain.filter isLedgerReferenceEntry).length
  let envelopes := (chain.filter (fun entry => !isLedgerReferenceEntry entry)).length
  if chain.isEmpty then return chainFindingOf .notChecked (emptyChainDetail note)
  if envelopes = 0 then return chainFindingOf .notChecked (onlyReferencesDetail referenceCount note)
  match session.anchor with
  | .notLoaded message =>
    return chainFindingOf .notChecked (notLoadedDetail envelopes referenceCount message)
  | .refused message =>
    return chainFindingOf .notChecked
      (js "the trust anchor could not be loaded, so no VAID was verified: " ++ message)
  | .loaded anchor =>
    let instant ← evaluationInstant session opts bundle
    let tally ← checkEntries anchor instant session.tty 0 chain ⟨[], 0, 0, 0⟩
    return chainFindingOf (tallyState tally referenceCount)
      (tallyDetail session opts chain.length referenceCount instant tally)

/-! ### The audit chain -/

/-- The scheme of the ledger: five fields of a row, hashed as one stream. -/
def computeEntryHash (e : JsValue) : Throws JsStr := do
  let prevHash ← template (memberOf e "prev_hash")
  let eventType ← template (memberOf e "event_type")
  let agentIdJson := match memberOf e "agent_id" with
    | .undefined | .null => js "null"
    | agentId => shown agentId
  let recordedAt ← template (memberOf e "recorded_at")
  return sha256Hex (encode prevHash ++ encode eventType ++ encode agentIdJson ++
    encode (encodable (memberOf e "details")) ++ encode recordedAt)

def isObjectType : JsValue → Bool
  | .obj _ | .arr _ => true
  | _ => false

def asNumber : JsValue → Option Binary64.Bits
  | .num b => some b
  | _ => none

/-- What the loop over the rows has come to. -/
structure AuditTally where
  linkProblems : List JsStr
  hashProblems : List JsStr
  notRecomputable : List Nat

/-- What is said of row `i`. -/
def rowText (i : Nat) (text : JsStr) : JsStr := js "[" ++ js (toString i) ++ js "] " ++ text

/-- What is said where `prev_hash` is not the hash of the row before. -/
def brokenLink (i : Nat) (prev e : JsValue) : Throws (List JsStr) :=
  if (memberOf e "prev_hash").strictEq (memberOf prev "entry_hash") then .ok []
  else do
    return [rowText i (js "(seq " ++ (← template (memberOf e "seq")) ++ js ") prev_hash " ++
      (← template (memberOf e "prev_hash")) ++ js " does not equal [" ++ js (toString (i - 1)) ++
      js "] (seq " ++ (← template (memberOf prev "seq")) ++ js ") entry_hash " ++
      (← template (memberOf prev "entry_hash")) ++ js " — the chain is BROKEN here")]

def missingText (seq prevSeq : Binary64.Bits) : Throws JsStr :=
  let one := Binary64.ofNat 1
  if Binary64.lt (Binary64.add prevSeq one) seq then do
    return (← template (.num (Binary64.sub (Binary64.sub seq prevSeq) one))) ++
      js " entr(y|ies) MISSING from this bundle"
  else .ok (js "out of order")

/-- What is said where the numbers of two rows do not follow each other. -/
def outOfStep (i : Nat) (prev e : JsValue) : Throws (List JsStr) :=
  match asNumber (memberOf e "seq"), asNumber (memberOf prev "seq") with
  | some seq, some prevSeq =>
    if Binary64.eq seq (Binary64.add prevSeq (Binary64.ofNat 1)) then .ok []
    else do
      return [rowText i (js "seq " ++ (← template (.num seq)) ++ js " does not follow [" ++
        js (toString (i - 1)) ++ js "] seq " ++ (← template (.num prevSeq)) ++ js " — " ++
        (← missingText seq prevSeq))]
  | _, _ => .ok []

/-- How a row links to the one before it. The first row has none. -/
def linkProblemsOf (i : Nat) (prev : Option JsValue) (e : JsValue) : Throws (List JsStr) :=
  match prev with
  | some prev => do return (← brokenLink i prev e) ++ (← outOfStep i prev e)
  | none => .ok []

/-- A row that carries what its hash is made of. -/
def isRecomputable (e : JsValue) : Bool :=
  !((memberOf e "stub").strictEq (.bool true) || (memberOf e "details").strictEq .undefined ||
    (memberOf e "event_type").asStr.isNone)

def auditRow (i : Nat) (prev : Option JsValue) (e : JsValue) (tally : AuditTally) : Throws AuditTally :=
  if !isObjectType e then
    .ok { tally with linkProblems := tally.linkProblems ++ [rowText i (js "is not an object")] }
  else do
    let absent := ["entry_hash", "prev_hash", "seq"].filter (fun n => (memberOf e n).strictEq .undefined)
    let linkProblems := tally.linkProblems ++ absent.map (fun n => rowText i (js "has no " ++ js n)) ++
      (← linkProblemsOf i prev e)
    match memberOf e "entry_hash" with
    | .str entryHash =>
      if !isRecomputable e then
        return ⟨linkProblems, tally.hashProblems, tally.notRecomputable ++ [i]⟩
      let recomputed ← computeEntryHash e
      if recomputed == toLowerCase entryHash then
        return ⟨linkProblems, tally.hashProblems, tally.notRecomputable⟩
      let problem := rowText i (js "(seq " ++ (← template (memberOf e "seq")) ++ js ") claims " ++ entryHash ++
        js ", real scheme gives " ++ recomputed)
      return ⟨linkProblems, tally.hashProblems ++ [problem], tally.notRecomputable⟩
    | _ => return ⟨linkProblems, tally.hashProblems, tally.notRecomputable⟩

/-- The loop over the rows, from the row at `i` on. -/
def auditRows : Nat → Option JsValue → List JsValue → AuditTally → Throws AuditTally
  | _, _, [], tally => .ok tally
  | i, prev, e :: entries, tally => do auditRows (i + 1) (some e) entries (← auditRow i prev e tally)

omit [Host] in
def linkageFinding (state : FindingState) (detail : JsStr) : Finding :=
  ⟨"audit_linkage", "Audit chain linkage", state, detail⟩

omit [Host] in
def entryHashFinding (state : FindingState) (detail : JsStr) : Finding :=
  ⟨"audit_entry_hash", "Audit entry hashes", state, detail⟩

def linkageOf (entries : List JsValue) (linkProblems : List JsStr) : Throws Finding :=
  if !linkProblems.isEmpty then
    .ok (linkageFinding .fail (js (toString linkProblems.length) ++
      js (" problem(s). This check does NOT depend on the hash function, so these are real breaks, " ++
        "not a scheme disagreement:\n        ") ++ joinWith "\n        " linkProblems))
  else do
    let signedCount := (entries.filter (fun e => (memberOf e "signed").strictEq (.bool true))).length
    let count := js (toString entries.length)
    return linkageFinding .pass (count ++
      js (" entries link head to tail: every prev_hash equals the preceding entry_hash and seq " ++
        "increases by exactly one from ") ++
      (← template (memberOf (entries.headD .undefined) "seq")) ++ js " to " ++
      (← template (memberOf (entries.getLastD .undefined) "seq")) ++ js ". " ++
      js (toString signedCount) ++ js " of " ++ count ++
      js (" are marked signed:true — a bundle whose entries are mostly signed:false carries entries no " ++
        "key vouches for, which the linkage check cannot tell you."))

omit [Host] in
/-- The finding about the hashes of the rows. A row is counted as recomputed unless it was
found to be not recomputable. -/
def entryHashesOf (count : Nat) (tally : AuditTally) : Finding :=
  let skipped := tally.notRecomputable.length
  let recomputedCount := count - skipped
  let skipNote := if skipped = 0 then [] else js " " ++ js (toString skipped) ++
    js (" row(s) carry no agent_id/details to recompute from (stub rows, or a bundle from before this " ++
      "field was exported) and were skipped, not failed.")
  if !tally.hashProblems.isEmpty then
    let problems := tally.hashProblems.length
    entryHashFinding .fail (js (toString problems) ++ js " of " ++ js (toString recomputedCount) ++
      js (" recomputable entry_hash values do NOT reproduce under the documented scheme — " ++
        "sha256(prev_hash || event_type || json(agent_id) || details.to_string() || recorded_at), raw " ++
        "concatenation, one hash. This is a real mismatch, not a scheme disagreement: a verifier that " ++
        "recomputes with no data of its own and still disagrees means the row changed after it was " ++
        "hashed.") ++ skipNote ++ js "\n        " ++ joinWith "\n        " (tally.hashProblems.take 5) ++
      if 5 < problems then js "\n        … and " ++ js (toString (problems - 5)) ++ js " more" else [])
  else if recomputedCount = 0 then
    entryHashFinding .notChecked (js "none of the " ++ js (toString count) ++
      js (" row(s) in this bundle carry the agent_id/details the documented entry_hash scheme needs — " ++
        "every row is a stub, or this bundle predates that export. The LINKAGE finding above is " ++
        "independent of this and still ran."))
  else if skipped ≠ 0 then
    entryHashFinding .caveat (js "all " ++ js (toString recomputedCount) ++
      js (" recomputable entry_hash values reproduce under the documented scheme — sha256(prev_hash || " ++
        "event_type || json(agent_id) || details.to_string() || recorded_at), raw concatenation, one " ++
        "hash.") ++ skipNote)
  else
    entryHashFinding .pass (js "all " ++ js (toString count) ++
      js (" entry_hash values reproduce under the documented scheme — sha256(prev_hash || event_type || " ++
        "json(agent_id) || details.to_string() || recorded_at), raw concatenation, one hash, as " ++
        "synthera-audit's hash::compute_entry_hash computes it."))

def auditChainFindings (entries : List JsValue) : Throws (List Finding) := do
  if entries.isEmpty then
    return [linkageFinding .notChecked
      (js ("audit_entries is EMPTY. There is no chain to check, so this is not a pass — an empty list " ++
        "and an intact chain are the same green tick if you let them be. A bundle whose scope " ++
        "produced no audit entries should be read with that in mind."))]
  let tally ← auditRows 0 none entries ⟨[], [], []⟩
  return [← linkageOf entries tally.linkProblems, entryHashesOf entries.length tally]

/-- The policy that the bundle names. It is reported, and not verified. -/
def policyFinding (bundle : Members) : Throws Finding :=
  let finding (state : FindingState) (detail : JsStr) : Finding :=
    ⟨"policy_version", "Policy version", state, detail⟩
  match valueOf bundle "policy_version" with
  | .undefined | .null => .ok (finding .caveat
      (js ("the bundle carries no policy_version. Covered by content_hash either way, so this is not a " ++
        "tampering signal — it records that no policy bundle was named for this scope, which is " ++
        "itself something an auditor should see rather than have normalised away.")))
  | pv => do
    return finding .pass ((← templateOr (memberOf pv "bundle_name") "(unnamed)") ++ js " " ++
      (← templateOr (memberOf pv "semver") "(no semver)") ++ js ", bundle_hash " ++
      (← templateOr (memberOf pv "bundle_hash") "(none)") ++
      js (". Reported, NOT verified: this script has no copy of that policy bundle to hash, so it " ++
        "cannot confirm the hash describes the policy that was actually in force."))

def namesFinding (bundle : Members) : Throws Finding :=
  let renamed := required.filterMap (fun n => (field bundle n).bind (fun found =>
    if found.key = n then none else some (js n ++ js " (found as " ++ js found.key ++ js ")")))
  if !renamed.isEmpty then
    .ok (shapeFinding .caveat (js "all required fields present, but under non-contract names: " ++
      joinWith ", " renamed ++
      js (". Read, and reported, because a silent rename between producer and verifier is how two " ++
        "programs come to disagree about the same bytes.")))
  else do
    let chain := (itemsOf (valueOf bundle "delegation_chain")).length
    let decisions := (itemsOf (valueOf bundle "decisions")).length
    let entries := (itemsOf (valueOf bundle "audit_entries")).length
    return shapeFinding .pass (bundleVersion ++ js ", scope \"" ++ (← template (valueOf bundle "scope")) ++
      js "\", tenant \"" ++ (← template (valueOf bundle "tenant_id")) ++ js "\", generated " ++
      (← template (valueOf bundle "generated_at")) ++ js ". All required fields present. " ++
      js (toString chain) ++ js " delegation entr" ++ plural chain "y" "ies" ++ js ", " ++
      js (toString decisions) ++ js " decision(s), " ++ js (toString entries) ++ js " audit entr" ++
      plural entries "y" "ies" ++ js ".")

omit [Host] in
def shapeRefusal (bundle : Members) : Option BundleResult :=
  let missing := required.filter (fun n => (field bundle n).isNone)
  if !missing.isEmpty then
    some (malformedBundle missing (js "required field" ++ plural missing.length "" "s" ++ js " absent: " ++
      joinWith ", " (missing.map js) ++
      js (". No verdict was reached and none can be: the fields the checks consume are not there. " ++
        "Failing closed rather than verifying a subset and reporting it as the whole.")))
  else if !(valueOf bundle "version").strictEq (.str bundleVersion) then
    some (malformedBundle [] (js "this script implements " ++ bundleVersion ++
      js " and the bundle declares " ++ shown (valueOf bundle "version") ++
      js ". Refusing rather than applying v1 rules to a format whose rules it does not know."))
  else
    match shapeProblems bundle with
    | [] => none
    | problems => some (malformedBundle [] (joinWith "; " problems ++ js ". Failing closed."))

/-- Run every check over a parsed bundle. -/
def verifyBundle (session : Session) (opts : Options) (bundle : Members) : Throws BundleResult :=
  match shapeRefusal bundle with
  | some refusal => .ok refusal
  | none => do
    let sources := sources session opts
    let decision := keyDecision sources
    let names ← namesFinding bundle
    let signature ← checkSignature bundle decision (decide ((gatingAnswered sources).length = 2))
    let delegation ← delegationFinding session opts bundle (itemsOf (valueOf bundle "delegation_chain"))
    let audit ← auditChainFindings (itemsOf (valueOf bundle "audit_entries"))
    let policy ← policyFinding bundle
    return ⟨false, [], [names, contentHashFinding bundle, decision.finding, signature, delegation] ++
      audit ++ [policy]⟩

omit [Host] in
def exitCodeFor (result : BundleResult) : Nat :=
  if result.malformed then 4
  else if result.findings.any (fun f => f.state = .fail) then 1
  else if result.findings.any (fun f => f.state = .notChecked) then 3
  else 0

theorem of_verifyBundle_eq_ok {session : Session} {opts : Options} {bundle : Members}
    {result : BundleResult} (run : verifyBundle session opts bundle = .ok result) :
    shapeRefusal bundle = some result ∨ shapeRefusal bundle = none ∧
      ∃ names signature delegation audit policy, namesFinding bundle = .ok names ∧
        checkSignature bundle (keyDecision (sources session opts))
          (decide ((gatingAnswered (sources session opts)).length = 2)) = .ok signature ∧
        delegationFinding session opts bundle (itemsOf (valueOf bundle "delegation_chain")) =
          .ok delegation ∧
        auditChainFindings (itemsOf (valueOf bundle "audit_entries")) = .ok audit ∧
        policyFinding bundle = .ok policy ∧
        result = ⟨false, [], [names, contentHashFinding bundle,
          (keyDecision (sources session opts)).finding, signature, delegation] ++ audit ++ [policy]⟩ := by
  unfold verifyBundle at run
  split at run
  · rename_i refusal shape
    rw [← Except.ok.inj run]
    exact .inl shape
  · rename_i shape
    obtain ⟨names, named, run⟩ := Raising.of_bind_eq_ok run
    obtain ⟨signature, signed, run⟩ := Raising.of_bind_eq_ok run
    obtain ⟨delegation, delegated, run⟩ := Raising.of_bind_eq_ok run
    obtain ⟨audit, audited, run⟩ := Raising.of_bind_eq_ok run
    obtain ⟨policy, reported, run⟩ := Raising.of_bind_eq_ok run
    exact .inr ⟨shape, names, signature, delegation, audit, policy, named, signed, delegated, audited,
      reported, (Except.ok.inj run).symm⟩

end VaidSuite.TypeScript.EvidenceBundle
