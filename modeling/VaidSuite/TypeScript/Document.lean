import VaidSuite.Attenuation
import VaidSuite.Lib.Raising
import VaidSuite.TypeScript.Value

/-! The TypeScript mirror of the document rules: issuer identity, signing bytes, expiry,
the scope and capability matchers, and the containment predicates. -/
namespace VaidSuite.TypeScript

/-- What the packages import, and the conversions that the language makes of values other
than strings and numbers. -/
class Runtime where
  sha256 : Bytes → Bytes
  /-- `canonicalize(value)`. `none` is a `JcsError`. -/
  canonicalize : JsValue → Option Bytes
  ed25519Verify : (signature message publicKey : Bytes) → Bool
  /-- `Date.parse(value)`, in milliseconds. `none` is `NaN`. -/
  dateParse : JsStr → Option Int
  /-- The string of a value that is not one. `none` is a `TypeError`. -/
  toText : JsValue → Option JsStr
  /-- `JSON.stringify(v)`, as a template literal shows it. -/
  stringify : JsValue → JsStr
  /-- The message of the error that `JSON.parse` throws on a text. -/
  syntaxError : JsStr → JsStr
  /-- The number of a value that is not one. `none` is a `TypeError`. -/
  toNumber : JsValue → Option Binary64.Bits
  /-- `Uint8Array.from(v)` of a value that is not an array. `none` when it throws. -/
  bytesOfArrayLike : JsValue → Option Bytes

variable [Runtime]

/-- `${v}`. -/
def template : JsValue → Throws JsStr
  | .str s => .ok s
  | v =>
    match Runtime.toText v with
    | some s => .ok s
    | none => .error .typeError

omit [Runtime] in
def thumbprintUriPrefix : JsStr := js "urn:ietf:params:oauth:jwk-thumbprint:sha-256:"

def b64url (data : Bytes) : JsStr := (base64Url data).flatMap utf16

/-- The RFC 9278 thumbprint URI of a raw Ed25519 public key. -/
def kernelKeyThumbprint (publicKey : Bytes) : Throws JsStr :=
  let jwk : JsValue := .obj [(js "crv", .str (js "Ed25519")), (js "kty", .str (js "OKP")),
    (js "x", .str (b64url publicKey))]
  match Runtime.canonicalize jwk with
  | some canonical => .ok (thumbprintUriPrefix ++ b64url (Runtime.sha256 canonical))
  | none => .error .jcsError

def isLowerOrDigit (ch : CodeUnit) : Bool :=
  (97 ≤ ch.val && ch.val ≤ 122) || (48 ≤ ch.val && ch.val ≤ 57)

def isTrustDomainLabel (label : JsStr) : Bool :=
  !label.isEmpty && decide ((encode label).length ≤ trustDomainMaxLabelLen) &&
    !(js "-").isPrefixOf label && !(js "-").isSuffixOf label &&
    label.all (fun ch => isLowerOrDigit ch || [ch] == js "-")

def isTrustDomain (s : JsStr) : Bool :=
  let labels := s.splitOn (Fin.ofNat 0x10000 '.'.toNat)
  decide ((encode s).length ≤ trustDomainMaxLen) && decide (2 ≤ labels.length) &&
    labels.all isTrustDomainLabel &&
    !(labels.getLastD []).all (fun ch => 48 ≤ ch.val && ch.val ≤ 57)

def isValidTrustDomain : JsValue → Bool
  | .str s => !s.isEmpty && isTrustDomain s
  | _ => false

def reservedTlds : List JsStr :=
  [js "example", js "invalid", js "localhost", js "test", js "local", js "internal"]

/-- Is the last label of a name one that is reserved for special use? -/
def isSpecialUseTrustDomain : JsValue → Bool
  | .str s =>
    let labels := s.splitOn (Fin.ofNat 0x10000 '.'.toNat)
    decide (2 ≤ labels.length) && reservedTlds.contains (labels.getLastD [])
  | _ => false

def vaidSigVersionV4 : Nat := 4

/-- The signing digest: the document with its signature forced to `null`. -/
def canonicalVaidSigningBytes (vaid : Members) : Throws Bytes :=
  match Runtime.canonicalize (.obj (InsertionMap.set (js "kernel_signature") .null vaid)) with
  | some canonical => .ok (Runtime.sha256 canonical)
  | none => .error .jcsError

def computeLineageHash (parentVaid : JsValue) (agentId : JsStr) : Throws JsStr := do
  let material ← match parentVaid with
    | .null => pure (js "GENESIS:" ++ agentId)
    | parent => do pure ((← template parent) ++ js ":" ++ agentId)
  return js (lowerHex (Runtime.sha256 (encode material)))

/-- A numeric offset or a `Z`, at the end. -/
def hasOffset (value : JsStr) : Bool :=
  match value.reverse.map Fin.val with
  | 0x5a :: _ | 0x7a :: _ => true
  | m₂ :: m₁ :: 0x3a :: h₂ :: h₁ :: sign :: _ =>
    (sign == 0x2b || sign == 0x2d) && [m₂, m₁, h₂, h₁].all JsonText.isDigit
  | _ => false

/-- Milliseconds since 1970. A timestamp without an offset is not one. -/
def parseRfc3339 : JsValue → Option Int
  | .str value => if hasOffset value then Runtime.dateParse value else none
  | _ => none

/-- An expiry that cannot be read has passed. -/
def isExpired (vaid : Members) (now : Int) : Bool :=
  match parseRfc3339 (vaid.get "expires_at") with
  | none => true
  | some expires => decide (expires < now)

/-- What lineage assembly and chain verification index into. -/
def requireVaidShape (document : JsValue) (context : String) : Throws Members :=
  match document with
  | .obj record =>
    match Members.get record "vaid_id" with
    | .str (_ :: _) =>
      match Members.get record "parent_vaid" with
      | .null | .undefined | .str _ => .ok record
      | _ => .error (.malformedDocument
          (js context ++ js ".parent_vaid is present but not a string"))
    | _ => .error (.malformedDocument (js context ++ js ".vaid_id is missing or not a string"))
  | _ => .error (.malformedDocument (js context ++ js " is not an object"))

def scopeSeparators : List JsStr := [js "/", js "."]

def scopeKindPrefix : JsStr := js "prefix"

def entryMembers : List JsStr := [js "kind", js "value"]

def isWellFormedScopeEntry : JsValue → Bool
  | .obj entry =>
    let keys := entry.map Prod.fst
    keys.length == entryMembers.length && entryMembers.all keys.contains &&
      match Members.get entry "kind" with
      | .str kind =>
        !kind.isEmpty && (kind != scopeKindPrefix || (Members.get entry "value").asStr.isSome)
      | _ => false
  | _ => false

def isWellFormedScopeBoundary : JsValue → Bool
  | .arr boundary => boundary.all isWellFormedScopeEntry
  | _ => false

def entryClaimedResource : JsValue → Option JsStr
  | .obj entry =>
    if (Members.get entry "kind").strictEq (.str scopeKindPrefix) then
      (Members.get entry "value").asStr
    else none
  | _ => none

def prefixContains (pfx resource : JsStr) : Bool :=
  if pfx = [] then true
  else if resource = pfx then true
  else if scopeSeparators.any (fun sep => sep.isSuffixOf pfx) then pfx.isPrefixOf resource
  else scopeSeparators.any (fun sep => (pfx ++ sep).isPrefixOf resource)

/-- Evaluate one entry. `none` is an entry that cannot be evaluated here. -/
def entryContains (entry : JsValue) (resource : JsStr) : Option Bool :=
  match entry with
  | .obj members =>
    if (Members.get members "kind").strictEq (.str scopeKindPrefix) then
      match Members.get members "value" with
      | .str value => some (prefixContains value resource)
      | _ => none
    else none
  | _ => none

def entryIsEvaluable (entry : JsValue) : Bool := (entryContains entry []).isSome

/-- The items of an array. Nothing else has the methods that are called on it. -/
def arrayItems : JsValue → Throws (List JsValue)
  | .arr items => .ok items
  | _ => .error .typeError

def boundaryIsEvaluable (boundary : JsValue) : Throws Bool :=
  (arrayItems boundary).map (fun items => items.all entryIsEvaluable)

/-- The scope matcher. An entry that cannot be read refuses the whole boundary. -/
def scopeContains (boundary : List JsValue) (resource : JsStr) : Bool :=
  match Containment.scan (fun entry => entryContains entry resource) boundary false with
  | none => false
  | some contained => boundary.isEmpty || contained

def includes (container item : JsValue) : Throws Bool :=
  match container with
  | .arr items => .ok (items.any item.sameValueZero)
  | .str s => (template item).map (fun t => s.tails.any t.isPrefixOf)
  | _ => .error .typeError

def scopeAttenuationReason (parentScope childScope : JsValue) : Throws AttenuationReason := do
  if !(← boundaryIsEvaluable parentScope) then return .unknownScopeKind
  if !(← boundaryIsEvaluable childScope) then return .unknownScopeKind
  let parentEntries ← arrayItems parentScope
  let childEntries ← arrayItems childScope
  let attenuates :=
    if childEntries.isEmpty then parentEntries.isEmpty
    else childEntries.all (fun e => (entryClaimedResource e).any (scopeContains parentEntries))
  return if attenuates then .attenuated else .scopeEscalation

def scopeAttenuatesWithin (parentScope childScope : JsValue) : Throws Bool := do
  return (← scopeAttenuationReason parentScope childScope) == .attenuated

def scopeAttenuates (parent : Members) (childScope : JsValue) : Throws Bool :=
  scopeAttenuatesWithin (parent.get "scope_boundary") childScope

def tenantAttenuates (parent : Members) (childTrustDomain childTenant : JsValue) : Bool :=
  (parent.get "trust_domain").strictEq childTrustDomain &&
    (parent.get "tenant_id").strictEq childTenant

/-- Each of the child's capabilities, in turn, is one of the parent's. -/
def capsAttenuateWithin (parentCaps childCaps : JsValue) : Throws Bool := do
  (← arrayItems childCaps).allM (includes parentCaps)

def capsAttenuate (parent : Members) (childCaps : JsValue) : Throws Bool :=
  capsAttenuateWithin (parent.get "capability_set") childCaps

/-- An expiry that cannot be read, on either side, is not contained. -/
def expiryAttenuates (parent : Members) (childExpiresAt : JsValue) : Bool :=
  match parseRfc3339 (parent.get "expires_at"), parseRfc3339 childExpiresAt with
  | some parentExpires, some childExpires => decide (childExpires ≤ parentExpires)
  | _, _ => false

end VaidSuite.TypeScript
