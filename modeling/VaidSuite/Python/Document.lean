import VaidSuite.Attenuation
import VaidSuite.Lib.Raising
import VaidSuite.Python.Libraries

/-! The Python mirror of the document rules: issuer identity, signing bytes, expiry,
the scope and capability matchers, and the containment predicates. -/
namespace VaidSuite.Python

variable [Libraries]

def thumbprintUriPrefix : PyStr := py "urn:ietf:params:oauth:jwk-thumbprint:sha-256:"

/-- The RFC 9278 thumbprint URI of a raw Ed25519 public key. -/
def kernelKeyThumbprint (publicKey : Bytes) : Raises PyStr := do
  let jwk : PyValue := .obj [(py "crv", .str (py "Ed25519")), (py "kty", .str (py "OKP")),
    (py "x", .str (b64url publicKey))]
  let canonical ← dumps jwk
  return thumbprintUriPrefix ++ b64url (Libraries.sha256 canonical)

def isLowerOrDigit (ch : CodePoint) : Bool :=
  (97 ≤ ch.val && ch.val ≤ 122) || (48 ≤ ch.val && ch.val ≤ 57)

def isTrustDomainLabel (label : PyStr) : Bool :=
  !label.isEmpty && decide (utf8Length label ≤ trustDomainMaxLabelLen) &&
    label.head? != some (CodePoint.ofChar '-') && label.getLast? != some (CodePoint.ofChar '-') &&
    label.all (fun ch => isLowerOrDigit ch || ch == CodePoint.ofChar '-')

/-- The rest of `isValidTrustDomain`, for a string that encodes. By its last step every
label is ASCII, where `isdigit` is a test for `0` to `9`. -/
def isTrustDomain (s : PyStr) : Bool :=
  let labels := s.splitOn (CodePoint.ofChar '.')
  decide (utf8Length s ≤ trustDomainMaxLen) && decide (2 ≤ labels.length) &&
    labels.all isTrustDomainLabel &&
    !(labels.getLastD []).all (fun ch => 48 ≤ ch.val && ch.val ≤ 57)

def isValidTrustDomain (value : PyValue) : Raises Bool :=
  match value with
  | .str s => if s.isEmpty then .ok false else (encode s).map (fun _ => isTrustDomain s)
  | _ => .ok false

def vaidSigVersionV4 : Int := 4

/-- The signing digest: the document with its signature forced to `None`. -/
def canonicalVaidSigningBytes (vaid : Dict) : Raises Bytes := do
  let payload := InsertionMap.set (py "kernel_signature") .null vaid
  return Libraries.sha256 (← dumps (.obj payload))

def computeLineageHash (parentVaid agentId : PyValue) : Raises PyStr := do
  let material := match parentVaid with
    | .null => py "GENESIS:" ++ format agentId
    | parent => format parent ++ py ":" ++ format agentId
  return hexdigest (Libraries.sha256 (← encode material))

omit [Libraries] in
/-- What lineage assembly and chain verification index into. -/
def requireVaidShape (document : Dict) (context : String) : Raises Unit :=
  match document.get "vaid_id" with
  | .str (_ :: _) =>
    match document.get "parent_vaid" with
    | .null | .str _ => .ok ()
    | _ => .error (.malformedDocument
        (py context ++ py ".parent_vaid is present but not a string"))
  | _ => .error (.malformedDocument (py context ++ py ".vaid_id is missing or not a string"))

/-- `_parse_rfc3339`. A timestamp without an offset is not one. -/
def parseRfc3339 (value : PyValue) : Raises (Option UtcDatetime) :=
  match value with
  | .str s =>
    match Libraries.fromisoformat s with
    | none | some .naive => .ok none
    | some (.aware utcMicros) => (utcDatetime utcMicros).map some
  | _ => .ok none

/-- An expiry that cannot be read has passed. -/
def isExpiredAt (vaid : Dict) (now : UtcDatetime) : Raises Bool := do
  match ← parseRfc3339 (vaid.get "expires_at") with
  | none => return true
  | some expiresAt => return decide (expiresAt < now)

/-- An expiry that cannot be read, on either side, is not contained. -/
def expiryAttenuates (parent : Dict) (childExpiresAt : PyValue) : Raises Bool := do
  let parentExpires ← parseRfc3339 (parent.get "expires_at")
  let childExpires ← parseRfc3339 childExpiresAt
  match parentExpires, childExpires with
  | some parentExpires, some childExpires => return decide (childExpires ≤ parentExpires)
  | _, _ => return false

omit [Libraries]

def scopeSeparators : List PyStr := [py "/", py "."]

def scopeKindPrefix : PyStr := py "prefix"

def entryMembers : List PyStr := [py "kind", py "value"]

def isWellFormedScopeEntry : PyValue → Bool
  | .obj entry =>
    entry.all (fun m => entryMembers.contains m.1) &&
      entryMembers.all (fun k => entry.any (fun m => m.1 == k)) &&
      match Dict.get entry "kind" with
      | .str kind => !kind.isEmpty && (kind != scopeKindPrefix || (Dict.get entry "value").asStr.isSome)
      | _ => false
  | _ => false

def isWellFormedScopeBoundary : PyValue → Bool
  | .arr boundary => boundary.all isWellFormedScopeEntry
  | _ => false

def entryClaimedResource : PyValue → Option PyStr
  | .obj entry =>
    if pyEq (Dict.get entry "kind") (.str scopeKindPrefix) then (Dict.get entry "value").asStr
    else none
  | _ => none

def prefixContains (pfx resource : PyStr) : Bool :=
  if pfx = [] then true
  else if resource = pfx then true
  else if scopeSeparators.any (fun sep => sep.isSuffixOf pfx) then pfx.isPrefixOf resource
  else scopeSeparators.any (fun sep => (pfx ++ sep).isPrefixOf resource)

/-- Evaluate one entry. `none` is an entry that cannot be evaluated here. -/
def entryContains (entry : PyValue) (resource : PyStr) : Option Bool :=
  match entry with
  | .obj members =>
    if pyEq (Dict.get members "kind") (.str scopeKindPrefix) then
      match Dict.get members "value" with
      | .str value => some (prefixContains value resource)
      | _ => none
    else none
  | _ => none

def entryIsEvaluable (entry : PyValue) : Bool := (entryContains entry []).isSome

def boundaryIsEvaluable (boundary : List PyValue) : Bool := boundary.all entryIsEvaluable

/-- The scope matcher. An entry that cannot be read refuses the whole boundary. -/
def scopeContains (boundary : List PyValue) (resource : PyStr) : Bool :=
  match Containment.scan (fun entry => entryContains entry resource) boundary false with
  | none => false
  | some contained => boundary.isEmpty || contained

def isInScope (vaid : Dict) (resource : PyStr) : Raises Bool := do
  return scopeContains (← iter (← vaid.item "scope_boundary")) resource

/-- `has_capability`. A document whose `capability_set` is not a list holds none. -/
def hasCapability (vaid : Dict) (capability : PyStr) : Bool :=
  match vaid.get "capability_set" with
  | .arr capabilities => capabilities.any (pyEq (.str capability))
  | _ => false

def scopeAttenuationReason (parentScope childScope : PyValue) : Raises AttenuationReason := do
  let parentEntries ← iter parentScope
  if !boundaryIsEvaluable parentEntries then return .unknownScopeKind
  let childEntries ← iter childScope
  if !boundaryIsEvaluable childEntries then return .unknownScopeKind
  let attenuates :=
    if childEntries.isEmpty then parentEntries.isEmpty
    else childEntries.all (fun e => (entryClaimedResource e).any (scopeContains parentEntries))
  return if attenuates then .attenuated else .scopeEscalation

def scopeAttenuatesWithin (parentScope childScope : PyValue) : Raises Bool := do
  return (← scopeAttenuationReason parentScope childScope) == .attenuated

def scopeAttenuates (parent : Dict) (childScope : PyValue) : Raises Bool := do
  scopeAttenuatesWithin (← parent.item "scope_boundary") childScope

def tenantAttenuates (parent : Dict) (childTrustDomain childTenant : PyValue) : Raises Bool := do
  if pyEq (← parent.item "trust_domain") childTrustDomain then
    return pyEq (← parent.item "tenant_id") childTenant
  else return false

/-- Each of the child's capabilities, in turn, is one of the parent's. -/
def capsAttenuateWithin (parentCaps childCaps : PyValue) : Raises Bool := do
  (← iter childCaps).allM (contains parentCaps)

def capsAttenuate (parent : Dict) (childCaps : PyValue) : Raises Bool := do
  capsAttenuateWithin (← parent.item "capability_set") childCaps

theorem prefixContains_eq : prefixContains = Containment.segmentPrefix scopeSeparators := rfl

theorem prefixContains_trans (a b c : PyStr) (hab : prefixContains a b = true)
    (hbc : prefixContains b c = true) : prefixContains a c = true :=
  Containment.segmentPrefix_trans hab hbc

theorem entryContains_eq (entry : PyValue) (resource : PyStr) :
    entryContains entry resource =
      (entryClaimedResource entry).map (fun p => prefixContains p resource) := by
  unfold entryContains entryClaimedResource
  cases entry with
  | obj members =>
    dsimp only
    split
    · cases Dict.get members "value" <;> rfl
    · rfl
  | _ => rfl

/-- The prefixes that a boundary names, when every entry can be read. -/
def claimedResources (boundary : List PyValue) : Option (List PyStr) :=
  Containment.regions entryClaimedResource boundary

theorem boundaryIsEvaluable_eq (boundary : List PyValue) :
    boundaryIsEvaluable boundary = (claimedResources boundary).isSome := by
  have reads : entryIsEvaluable = fun e => (entryClaimedResource e).isSome := by
    funext e
    simp [entryIsEvaluable, entryContains_eq]
  rw [boundaryIsEvaluable, reads]
  exact (Containment.regions_isSome boundary).symm

theorem scopeContains_eq (boundary : List PyValue) (resource : PyStr) :
    scopeContains boundary resource = match claimedResources boundary with
      | none => false
      | some ps => Containment.within prefixContains ps resource := by
  have scanned : Containment.scan (fun entry => entryContains entry resource) boundary false =
      (claimedResources boundary).map (fun ps => ps.any (fun p => prefixContains p resource)) :=
    Containment.scan_eq (fun e => entryContains_eq e resource) boundary false
  rw [scopeContains, scanned]
  cases h : claimedResources boundary with
  | none => rfl
  | some ps => simp [Containment.within, Containment.regions_isEmpty h]

theorem scopeAttenuationReason_arr (parentScope childScope : List PyValue) :
    scopeAttenuationReason (.arr parentScope) (.arr childScope) =
      .ok (reasonOf prefixContains (claimedResources parentScope) (claimedResources childScope)) := by
  simp only [scopeAttenuationReason, iter, boundaryIsEvaluable_eq, Raising.ok_bind]
  cases hp : claimedResources parentScope with
  | none => rfl
  | some ps =>
    cases hc : claimedResources childScope with
    | none => rfl
    | some cs =>
      have contains : scopeContains parentScope = Containment.within prefixContains ps := by
        funext r
        rw [scopeContains_eq, hp]
      exact congrArg (fun b : Bool => Except.ok (if b = true then AttenuationReason.attenuated
        else .scopeEscalation)) (Containment.claims_attenuate hp hc contains)

/-- Scope attenuation of two lists of entries is attenuation of the prefix unions, and
refuses a boundary that cannot be read on either side. -/
theorem scopeAttenuatesWithin_arr (parentScope childScope : List PyValue) :
    scopeAttenuatesWithin (.arr parentScope) (.arr childScope) =
      .ok (match claimedResources parentScope, claimedResources childScope with
        | some ps, some cs => Containment.attenuates prefixContains ps cs
        | _, _ => false) := by
  rw [scopeAttenuatesWithin, scopeAttenuationReason_arr, Raising.ok_bind]
  cases claimedResources parentScope with
  | none => rfl
  | some ps =>
    cases claimedResources childScope with
    | none => rfl
    | some cs => exact congrArg Except.ok (reasonOf_some prefixContains ps cs)

end VaidSuite.Python
