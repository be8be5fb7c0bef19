import VaidSuite.Python.Canonical
import VaidSuite.Python.ChainSpec
import VaidSuite.Python.Issuers

/-! The steps that every bearer of a chain takes over the presented documents, up to the
verified bundle, with what stops them apart from how a bearer reports it. -/
namespace VaidSuite.Python

open Guards (firstRefusal)

def TrustedIssuerMap.trust (keys : TrustedIssuerMap) : Trust :=
  fun thumbprint => (keys.lookup thumbprint).map TrustedIssuer.publicKey

section Steps

variable [Libraries]

namespace Presented

variable (keys : TrustedIssuerMap) (d : Presented)

/-- The trusted key of the document is bound to the domain it claims. -/
def isBound : Bool :=
  (keys.lookup d.thumbprint).any (fun issuer => issuer.trustDomain == d.trustDomain)

/-- A trusted key whose domain is another one than the document claims. -/
def isBoundElsewhere : Bool :=
  (keys.lookup d.thumbprint).any (fun issuer => issuer.trustDomain != d.trustDomain)

def trustedAuthenticity : VaidVerdict :=
  (keys.lookup d.thumbprint).elim .issuerMismatch (fun issuer => d.authenticity issuer.publicKey)

theorem hasEvaluableBoundary_eq (d : Presented) : hasEvaluableBoundary d.dict = d.claimed.isSome := by
  rw [hasEvaluableBoundary, d.get_scopeBoundary]
  exact boundaryIsEvaluable_eq _

theorem isMisbound_eq (keys : TrustedIssuerMap) (d : Presented) :
    isMisbound keys d.dict = d.isBoundElsewhere keys := by
  rw [isMisbound, d.get_thumbprint, d.get_trustDomain, isBoundElsewhere]
  simp only [Json.asStr, Option.bind_some, TrustedIssuerMap.trustDomainFor]
  cases keys.lookup d.thumbprint with
  | none => rfl
  | some issuer => simp [bne]

end Presented

def chainVerdict (trusted : Trust) (leaf : Presented) (chain : List Presented) (now : UtcDatetime) :
    ChainVerification :=
  firstRefusal .attenuated (chainSteps leaf chain trusted now)

/-- The revocation of the assembled lineage. An incomplete one cannot be vouched for. -/
def lineageStanding (revocation : List PyStr → RevocationStatus) (leaf : Presented)
    (chain : List Presented) : RevocationStatus :=
  ((presentation leaf chain).names maxLineageDepth).elim .unavailable revocation

inductive FaultKind where
  | issuerMismatch
  | authenticity (verdict : VaidVerdict)
  | expired
  | unknownScopeKind
  | chain (verdict : ChainVerification)

/-- A step that did not pass, with what a report of it names. -/
inductive Fault where
  | unknownKey
  | leafMisbound (boundDomain : PyStr)
  | leafAuthenticity (verdict : VaidVerdict)
  | leafExpired
  | unknownScopeKind (doc : Dict)
  | misbound (doc : Dict)
  | chain (verdict : ChainVerification)

def Fault.kind : Fault → FaultKind
  | .unknownKey | .leafMisbound _ | .misbound _ => .issuerMismatch
  | .leafAuthenticity verdict => .authenticity verdict
  | .leafExpired => .expired
  | .unknownScopeKind _ => .unknownScopeKind
  | .chain verdict => .chain verdict

section Bearer

variable {R : Type} (report : Fault → R) (goOn : PresentedBundle → Raises R)

/-- Every boundary can be read, the presented documents' bindings, then the chain. -/
def checkDocuments (keys : TrustedIssuerMap) (now : UtcDatetime) (leaf : Dict) (chain : List Dict) :
    Raises R := do
  match (leaf :: chain).find? (fun doc => !hasEvaluableBoundary doc) with
  | some doc => return report (.unknownScopeKind doc)
  | none =>
    match chain.find? (isMisbound keys) with
    | some doc => return report (.misbound doc)
    | none =>
      let bundle ← PresentedBundle.new chain
      let verdict ← verifyChainAt keys.resolveKey leaf bundle .empty now
      if verdict ≠ .attenuated then return report (.chain verdict)
      goOn bundle

/-- The leaf's own binding, its authenticity and its expiry, then all documents. A bearer
reports what stops it, and goes on with the bundle. -/
def checkBearer (keys : TrustedIssuerMap) (now : UtcDatetime) (leaf : Dict) (chain : List Dict) :
    Raises R := do
  match (leaf.get "kernel_key_thumbprint").asStr.bind (fun t => keys.lookup t) with
  | none => return report .unknownKey
  | some issuer =>
    if !pyEq (.str issuer.trustDomain) (leaf.get "trust_domain") then
      return report (.leafMisbound issuer.trustDomain)
    let authenticity ← verifyVaidAuthenticityGraded issuer.publicKey leaf
    if authenticity ≠ .valid then return report (.leafAuthenticity authenticity)
    if ← isExpiredAt leaf now then return report .leafExpired
    checkDocuments report goOn keys now leaf chain

end Bearer

/-- What a bearer that goes on with a bundle has checked, of any documents. -/
structure Cleared (keys : TrustedIssuerMap) (now : UtcDatetime) (leaf : Dict) (chain : List Dict)
    (bundle : PresentedBundle) : Prop where
  bound : ∀ d ∈ leaf :: chain, isMisbound keys d = false
  unexpired : isExpiredAt leaf now = .ok false
  evaluable : ∀ d ∈ leaf :: chain, hasEvaluableBoundary d = true
  presented : PresentedBundle.new chain = .ok bundle
  attenuated : verifyChainAt keys.resolveKey leaf bundle .empty now = .ok .attenuated

theorem of_checkBearer {R : Type} {report : Fault → R} {goOn : PresentedBundle → Raises R}
    {keys : TrustedIssuerMap} {now : UtcDatetime} {leaf : Dict} {chain : List Dict} {r : R}
    (returned : checkBearer report goOn keys now leaf chain = .ok r) :
    (∃ fault, r = report fault) ∨
      ∃ bundle, Cleared keys now leaf chain bundle ∧ goOn bundle = .ok r := by
  have reported : ∀ {fault}, (pure (report fault) : Raises R) = .ok r → ∃ fault, r = report fault :=
    fun h => ⟨_, (Except.ok.inj h).symm⟩
  unfold checkBearer at returned
  split at returned
  · exact .inl (reported returned)
  · rename_i issuer trusted
    split at returned
    · exact .inl (reported returned)
    · rename_i sameDomain
      have leafBound : isMisbound keys leaf = false := by
        obtain ⟨t, claimed, listed⟩ := Option.bind_eq_some_iff.mp trusted
        rw [isMisbound, claimed, Option.bind_some, TrustedIssuerMap.trustDomainFor, listed]
        exact Bool.eq_false_iff.mpr sameDomain
      obtain ⟨verdict, _, returned⟩ := Raising.of_bind_eq_ok returned
      split at returned
      · exact .inl (reported returned)
      · obtain ⟨expired, unexpired, returned⟩ := Raising.of_bind_eq_ok returned
        cases expired with
        | true => exact .inl (reported returned)
        | false =>
          simp only [Bool.false_eq_true, if_false, checkDocuments] at returned
          split at returned
          · exact .inl (reported returned)
          · rename_i readable
            split at returned
            · exact .inl (reported returned)
            · rename_i chainBound
              obtain ⟨bundle, presented, returned⟩ := Raising.of_bind_eq_ok returned
              obtain ⟨chainVerdict, decided, returned⟩ := Raising.of_bind_eq_ok returned
              split at returned
              · exact .inl (reported returned)
              · rename_i attenuated
                rw [not_not.mp attenuated] at decided
                refine .inr ⟨bundle, ⟨List.forall_mem_cons.mpr ⟨leafBound, fun d member => ?_⟩,
                  unexpired, fun d member => ?_, presented, decided⟩, returned⟩
                · simpa using List.find?_eq_none.mp chainBound d member
                · simpa using List.find?_eq_none.mp readable d member

/-! ### What the steps decide -/

def documentSteps (keys : TrustedIssuerMap) (leaf : Presented) (chain : List Presented)
    (now : UtcDatetime) : List (Bool × Option FaultKind) :=
  [((leaf :: chain).all (fun d => d.claimed.isSome), some .unknownScopeKind),
    (chain.all (fun d => !d.isBoundElsewhere keys), some .issuerMismatch),
    (chainVerdict keys.trust leaf chain now == .attenuated,
      some (.chain (chainVerdict keys.trust leaf chain now)))]

/-- The steps that look at the leaf alone, and those over all documents. -/
def faultSteps (keys : TrustedIssuerMap) (leaf : Presented) (chain : List Presented)
    (now : UtcDatetime) : List (Bool × Option FaultKind) :=
  [(leaf.isBound keys, some .issuerMismatch),
    (leaf.trustedAuthenticity keys == .valid, some (.authenticity (leaf.trustedAuthenticity keys))),
    (!leaf.isExpired now, some .expired)] ++ documentSteps keys leaf chain now

section Decided

variable {keys : TrustedIssuerMap} {leaf : Presented} {chain : List Presented} {now : UtcDatetime}

theorem text_of_bound (text : ∀ t issuer, keys.lookup t = some issuer → Encodable issuer.trustDomain)
    (d : Presented) (bound : d.isBoundElsewhere keys = false) (key : Bytes)
    (found : keys.trust d.thumbprint = some key) : Encodable d.trustDomain := by
  obtain ⟨issuer, listed, _⟩ := Option.map_eq_some_iff.mp found
  rw [Presented.isBoundElsewhere, listed, Option.any_some, bne_eq_false_iff_eq] at bound
  exact bound ▸ text _ issuer listed

theorem isBoundElsewhere_of_isBound {d : Presented} (bound : d.isBound keys = true) :
    d.isBoundElsewhere keys = false := by
  obtain ⟨issuer, listed, same⟩ := (Option.any_eq_true _ _).mp bound
  rw [Presented.isBoundElsewhere, listed, Option.any_some, bne_eq_false_iff_eq]
  exact eq_of_beq same

variable (keys) in
omit [Libraries] in
theorem resolveKey_str (thumbprint : PyStr) :
    keys.resolveKey (.str thumbprint) = .ok (keys.trust thumbprint) := rfl

theorem evaluable_eq : (leaf :: chain).all (fun d => d.claimed.isSome) =
    ((leaf.dict :: chain.map Presented.dict).find? (fun doc => !hasEvaluableBoundary doc)).isNone :=
  Guards.all_eq_isNone_find Presented.dict (fun d => congrArg not d.hasEvaluableBoundary_eq)
    (leaf :: chain)

variable (keys chain) in
theorem bindings_eq : chain.all (fun d => !d.isBoundElsewhere keys) =
    ((chain.map Presented.dict).find? (isMisbound keys)).isNone :=
  Guards.all_eq_isNone_find Presented.dict
    (fun d => (d.isMisbound_eq keys).trans (Bool.not_not _).symm) chain

variable (now) in
theorem checkDocuments_ok
    (text : ∀ t issuer, keys.lookup t = some issuer → Encodable issuer.trustDomain)
    (timely : ∀ d ∈ leaf :: chain, d.Timely) (leafBound : leaf.isBoundElsewhere keys = false) :
    ∃ fault : Option Fault,
      fault.map Fault.kind = firstRefusal none (documentSteps keys leaf chain now) ∧
      ∀ {R : Type} (report : Fault → R) (goOn : PresentedBundle → Raises R),
        checkDocuments report goOn keys now leaf.dict (chain.map Presented.dict) =
          fault.elim (goOn (bundleOf chain)) (fun f => .ok (report f)) := by
  unfold checkDocuments documentSteps
  simp only [firstRefusal, evaluable_eq, bindings_eq]
  cases (leaf.dict :: chain.map Presented.dict).find? (fun doc => !hasEvaluableBoundary doc) with
  | some doc => exact ⟨some (.unknownScopeKind doc), rfl, fun _ _ => rfl⟩
  | none =>
    cases found : (chain.map Presented.dict).find? (isMisbound keys) with
    | some doc => exact ⟨some (.misbound doc), rfl, fun _ _ => rfl⟩
    | none =>
      have bindings := bindings_eq keys chain
      rw [found] at bindings
      have domains : ∀ d ∈ leaf :: chain, ∀ key, keys.trust d.thumbprint = some key →
          Encodable d.trustDomain := by
        intro d member key
        refine text_of_bound text d ?_ key
        rcases List.mem_cons.mp member with rfl | member
        · exact leafBound
        · simpa using List.all_eq_true.mp bindings d member
      have verdict := verifyChainAt_ok now (resolveKey_str keys) domains
        (fun docs assembled d member => timely d (mem_of_mem_lineage assembled member))
      rw [← chainVerdict] at verdict
      simp only [Option.isNone_none, if_true, PresentedBundle.new_ok, Raising.ok_bind, verdict]
      by_cases attenuated : chainVerdict keys.trust leaf chain now = .attenuated
      · simp only [attenuated, ne_eq, not_true_eq_false, if_false, beq_self_eq_true, if_true]
        exact ⟨none, rfl, fun _ _ => rfl⟩
      · have refused : (chainVerdict keys.trust leaf chain now == .attenuated) = false :=
          beq_eq_false_iff_ne.mpr attenuated
        simp only [attenuated, refused, ne_eq, not_false_eq_true, if_true, Bool.false_eq_true,
          if_false]
        exact ⟨some (.chain (chainVerdict keys.trust leaf chain now)), rfl, fun _ _ => rfl⟩

variable (now) in
/-- Where the trust domains are text and no expiry overflows, the steps raise nothing, and
stop at the first that does not pass. -/
theorem checkBearer_ok
    (text : ∀ t issuer, keys.lookup t = some issuer → Encodable issuer.trustDomain)
    (timely : ∀ d ∈ leaf :: chain, d.Timely) :
    ∃ fault : Option Fault,
      fault.map Fault.kind = firstRefusal none (faultSteps keys leaf chain now) ∧
      ∀ {R : Type} (report : Fault → R) (goOn : PresentedBundle → Raises R),
        checkBearer report goOn keys now leaf.dict (chain.map Presented.dict) =
          fault.elim (goOn (bundleOf chain)) (fun f => .ok (report f)) := by
  unfold checkBearer faultSteps
  simp only [leaf.get_thumbprint, leaf.get_trustDomain, Json.asStr, Option.bind_some, List.cons_append,
    List.nil_append, firstRefusal]
  cases listed : keys.lookup leaf.thumbprint with
  | none =>
    have unbound : leaf.isBound keys = false := by rw [Presented.isBound, listed, Option.any_none]
    simp only [unbound, Bool.false_eq_true, if_false]
    exact ⟨some .unknownKey, rfl, fun _ _ => rfl⟩
  | some issuer =>
    have bound : leaf.isBound keys = (issuer.trustDomain == leaf.trustDomain) := by
      rw [Presented.isBound, listed, Option.any_some]
    have authenticity : leaf.trustedAuthenticity keys = leaf.authenticity issuer.publicKey := by
      rw [Presented.trustedAuthenticity, listed, Option.elim_some]
    simp only [bound, authenticity, pyEq_str]
    cases same : issuer.trustDomain == leaf.trustDomain with
    | false =>
      simp only [Bool.not_false, if_true, Bool.false_eq_true, if_false]
      exact ⟨some (.leafMisbound issuer.trustDomain), rfl, fun _ _ => rfl⟩
    | true =>
      have leafText : Encodable leaf.trustDomain := eq_of_beq same ▸ text _ issuer listed
      simp only [Bool.not_true, Bool.false_eq_true, if_false, if_true,
        leaf.verifyVaidAuthenticityGraded_ok _ leafText, Raising.ok_bind,
        Presented.isExpiredAt_ok (timely leaf List.mem_cons_self)]
      by_cases valid : leaf.authenticity issuer.publicKey = .valid
      · have rest := checkDocuments_ok now text timely
          (isBoundElsewhere_of_isBound (bound.trans same))
        simp only [valid, ne_eq, not_true_eq_false, if_false, beq_self_eq_true, if_true]
        cases leaf.isExpired now with
        | true => exact ⟨some .leafExpired, rfl, fun _ _ => rfl⟩
        | false => exact rest
      · have refused : (leaf.authenticity issuer.publicKey == .valid) = false :=
          beq_eq_false_iff_ne.mpr valid
        simp only [valid, refused, ne_eq, not_false_eq_true, if_true, Bool.false_eq_true, if_false]
        exact ⟨some (.leafAuthenticity _), rfl, fun _ _ => rfl⟩

end Decided

end Steps

section Example

def wordBytes (word : Nat) : Bytes := (List.range 8).map (fun i => UInt8.ofNat (word / 256 ^ i % 256))

def textBytes (s : PyStr) : Bytes :=
  s.flatMap (fun c =>
    if c.val < 128 then [UInt8.ofNat c.val] else 0xf0 :: (wordBytes c.val).take 3) ++ [0xff]

mutual

def valueBytes : PyValue → Bytes
  | .null => [0]
  | .bool b => [1, UInt8.ofNat b.toNat]
  | .num (.int n) => 2 :: wordBytes (n + 2 ^ 53).toNat
  | .num (.float bits) => 3 :: wordBytes bits.toNat
  | .str s => 4 :: textBytes s
  | .arr items => 5 :: itemBytes items
  | .obj members => 6 :: memberBytes members

def itemBytes : List PyValue → Bytes
  | [] => [0xff]
  | v :: items => valueBytes v ++ itemBytes items

def memberBytes : List (PyStr × PyValue) → Bytes
  | [] => [0xff]
  | (k, v) :: members => 4 :: textBytes k ++ valueBytes v ++ memberBytes members

end

/-- Libraries without collisions, whose signatures hold the key and what is signed, and that
read two timestamps. -/
@[reducible] def pairLibraries : Libraries :=
  { Libraries.plain with
    sha256 := id
    canonicalize := fun v => if isCanonicalizable v then some (valueBytes v) else none
    ed25519Verify := fun publicKey signature data => signature == publicKey ++ data
    fromisoformat := fun s =>
      if s = py "9999-12-31T23:59:59Z" then some (.aware 315537897599000000)
      else if s = py "9999-12-31T23:59:58.999999Z" then some (.aware 315537897598999999)
      else none }

attribute [local instance] pairLibraries

def pairKey : Bytes := List.replicate 32 7

def pairThumbprint : PyStr := (kernelKeyThumbprint pairKey).toOption.getD []

def pairAgentId : PyStr := py "00000000-0000-4000-8000-00000000000a"

/-- A document of the key, without its signature. -/
def unsignedPair (vaidId : PyStr) (parentVaid : PyValue) (expiresAt scope : PyStr) : Dict :=
  [(py "vaid_id", .str vaidId), (py "agent_id", .str pairAgentId), (py "agent_class", .str []),
    (py "version", .str []), (py "tenant_id", .str (py "acme")),
    (py "issued_at", .str (py "9999-12-31T23:00:00Z")), (py "expires_at", .str expiresAt),
    (py "public_key_der", .arr []), (py "parent_vaid", parentVaid),
    (py "scope_boundary", .arr [.obj [(py "kind", .str (py "prefix")), (py "value", .str scope)]]),
    (py "lineage_hash", .str ((computeLineageHash parentVaid (.str pairAgentId)).toOption.getD [])),
    (py "capability_set", .arr [.str (py "read")]), (py "trust_domain", .str (py "vaid.example")),
    (py "sig_version", .num (.int 4)), (py "kernel_key_thumbprint", .str pairThumbprint),
    (py "kernel_signature", .null)]

def signPair (unsigned : Dict) : Dict :=
  InsertionMap.set (py "kernel_signature") (.ofBytes (pairKey ++ valueBytes (.obj unsigned))) unsigned

def pairRootId : PyStr := py "00000000-0000-4000-8000-000000000001"

def pairRootDict : Dict :=
  signPair (unsignedPair pairRootId .null (py "9999-12-31T23:59:59Z") (py "lab/"))

/-- It expires one microsecond before a whole second. -/
def pairChildDict : Dict :=
  signPair (unsignedPair (py "00000000-0000-4000-8000-000000000002") (.str pairRootId)
    (py "9999-12-31T23:59:58.999999Z") (py "lab/notes"))

theorem pair_contract :
    satisfiesContract pairRootDict = true ∧ satisfiesContract pairChildDict = true := by
  decide +kernel

def pairRoot : Presented := ⟨pairRootDict, pair_contract.1⟩

def pairChild : Presented := ⟨pairChildDict, pair_contract.2⟩

def pairKeys : TrustedIssuerMap := [(pairThumbprint, ⟨pairKey, py "vaid.example"⟩)]

def pairInstant : UtcDatetime := 315537897570000000

theorem pair_passes :
    ∀ s ∈ faultSteps pairKeys pairChild [pairRoot] pairInstant, s.1 = true := by
  have all : (faultSteps pairKeys pairChild [pairRoot] pairInstant).all Prod.fst = true := by
    decide +kernel
  exact List.all_eq_true.mp all

theorem pair_documented : CanonicalizesDocumented := by
  intro v
  change (if isCanonicalizable v = true then some (valueBytes v) else none).isSome = _
  cases isCanonicalizable v <;> rfl

theorem pair_inYears : ∀ d ∈ [pairChild, pairRoot], d.InYears := by
  intro d _ s utcMicros _ read
  change (if s = py "9999-12-31T23:59:59Z" then some (Datetime.aware 315537897599000000)
    else if s = py "9999-12-31T23:59:58.999999Z" then some (Datetime.aware 315537897598999999)
    else none) = _ at read
  split at read
  · cases read
    exact ⟨_, dif_pos (by decide)⟩
  · split at read
    · cases read
      exact ⟨_, dif_pos (by decide)⟩
    · cases read

theorem pair_text : ∀ t issuer, pairKeys.lookup t = some issuer → Encodable issuer.trustDomain := by
  intro t issuer listed
  have member := InsertionMap.mem_of_lookup listed
  cases List.mem_singleton.mp member
  exact List.all_eq_true.mp (show isUnicode (py "vaid.example") = true by decide)

end Example

end VaidSuite.Python
