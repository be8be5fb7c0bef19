import Mathlib.Data.List.Chain
import VaidSuite.Attestation
import VaidSuite.Verify

/-! End-to-end chain verification by detached presentation: the presenter supplies
the ancestor documents, the verifier authenticates all of them, assembles the
lineage through them and recomputes containment and consent at every hop. -/
namespace VaidSuite

open Guards (guard_eq_iff)

/-- The documents a presenter supplies beside a leaf, by `vaid_id`. A later one
with the same id replaces an earlier one. -/
abbrev PresentedBundle := Keyed Vaid.vaidId

namespace PresentedBundle

def new (documents : List Vaid) : PresentedBundle := Keyed.ofList documents

def empty : PresentedBundle := Keyed.empty

def resolveParent (bundle : PresentedBundle) (vaidId : VaidId) : ParentResolution :=
  match bundle.get vaidId with
  | none => .unknown
  | some doc =>
    match doc.parentVaid with
    | none => .root
    | some parent => .parent parent

end PresentedBundle

/-- Only `attenuated` is success. -/
inductive ChainVerification where
  | attenuated
  | inauthentic
  | unverifiable
  | notAttenuated
  | expired
  | consentExpired
  deriving DecidableEq, Repr

/-- A resolver is its one method, `resolve_key`: the key accepted for a thumbprint. -/
abbrev KernelKeyResolver := String → Option Bytes

section Verifier

variable [Crypto]

def SingleKernelKey.new (publicKey : Bytes) : KernelKeyResolver :=
  fun thumbprint => if thumbprint = kernelKeyThumbprint publicKey then some publicKey else none

/-- Each key is filed under its own thumbprint. -/
def KernelKeyMap.new (publicKeys : List Bytes) : KernelKeyResolver :=
  fun thumbprint => (InsertionMap.ofList kernelKeyThumbprint publicKeys).lookup thumbprint

def authenticate (keys : KernelKeyResolver) (doc : Vaid) : Bool :=
  match keys doc.kernelKeyThumbprint with
  | none => false
  | some key => verifyVaidAuthenticity key doc

variable [Chrono]

/-- The consent a cross-key hop needs. `none` is a panic of the window arithmetic. -/
def verifyConsent (keys : KernelKeyResolver) (now : Instant) (parent child : Vaid)
    (attestation : ConsentAttestation) : Option ChainVerification :=
  if attestation.kernelKeyThumbprint ≠ parent.kernelKeyThumbprint ∨
      attestation.trustDomain ≠ parent.trustDomain then some .inauthentic
  else if attestation.childTrustDomain ≠ child.trustDomain ∨
      attestation.childTenantId ≠ child.tenantId.asStr then some .notAttenuated
  else match keys attestation.kernelKeyThumbprint with
    | none => some .inauthentic
    | some key =>
      if !verifyAttestationAuthenticity key attestation then some .inauthentic
      else match attestation.isCurrent now with
        | none => none
        | some false => some .consentExpired
        | some true =>
          if !scopeAttenuatesWithin attestation.scopeBoundary child.scopeBoundary ||
              !capsAttenuateWithin attestation.capabilitySet child.capabilitySet then
            some .notAttenuated
          else if !scopeAttenuates parent attestation.scopeBoundary ||
              !capsAttenuate parent attestation.capabilitySet then some .notAttenuated
          else some .attenuated

/-- One hop. `attenuated` goes on to the next hop. -/
def verifyHop (keys : KernelKeyResolver) (attestations : AttestationBundle) (now : Instant)
    (parent child : Vaid) : Option ChainVerification :=
  let sameKey := parent.kernelKeyThumbprint = child.kernelKeyThumbprint
  if sameKey ∧ !tenantAttenuates parent child.trustDomain child.tenantId.asStr then
    some .notAttenuated
  else if !scopeAttenuates parent child.scopeBoundary then some .notAttenuated
  else if !capsAttenuate parent child.capabilitySet then some .notAttenuated
  else if !expiryAttenuates parent (some child.expiresAtAsPresented) then some .notAttenuated
  else if sameKey then some .attenuated
  else match attestations.get parent.vaidId child.vaidId with
    | none => some .inauthentic
    | some attestation => verifyConsent keys now parent child attestation

def verifyHops (keys : KernelKeyResolver) (attestations : AttestationBundle) (now : Instant) :
    List Vaid → Option ChainVerification
  | parent :: child :: docs =>
    match verifyHop keys attestations now parent child with
    | some .attenuated => verifyHops keys attestations now (child :: docs)
    | verdict => verdict
  | _ => some .attenuated

/-- The document of an id on the assembled chain. The leaf is matched first. -/
def chainDoc (leaf : Vaid) (bundle : PresentedBundle) (id : VaidId) : Option Vaid :=
  if id = leaf.vaidId then some leaf else bundle.get id

/-- `verify_chain_at`. `none` is a panic. -/
def verifyChainAt (keys : KernelKeyResolver) (leaf : Vaid) (bundle : PresentedBundle)
    (attestations : AttestationBundle) (now : Instant) : Option ChainVerification :=
  if !authenticate keys leaf then some .inauthentic
  else if !bundle.items.all (authenticate keys) then some .inauthentic
  else match assembleLineage leaf bundle.resolveParent with
    | .incomplete => some .unverifiable
    | .complete chainIds =>
      match chainIds.mapM (chainDoc leaf bundle) with
      | none => some .unverifiable
      | some chainDocs =>
        if chainDocs.dropLast.any (fun ancestor => ancestor.isExpiredAt now) then some .expired
        else verifyHops keys attestations now chainDocs

def verifyChain (kernelPublicKey : Bytes) (leaf : Vaid) (bundle : PresentedBundle)
    (now : Instant) : Option ChainVerification :=
  verifyChainAt (SingleKernelKey.new kernelPublicKey) leaf bundle AttestationBundle.empty now

end Verifier

/-- The signed parent links lead from a document through the bundle, over exactly
these documents, nearest first, to one with no parent. -/
inductive Presents (bundle : PresentedBundle) : Vaid → List Vaid → Prop where
  | root {doc : Vaid} : doc.parentVaid = none → Presents bundle doc []
  | hop {doc parent : Vaid} {id : VaidId} {ancestors : List Vaid} :
      doc.parentVaid = some id → bundle.get id = some parent →
      Presents bundle parent ancestors → Presents bundle doc (parent :: ancestors)

namespace Presents

variable {bundle : PresentedBundle}

theorem mem_items {doc : Vaid} {ancestors : List Vaid} (h : Presents bundle doc ancestors) :
    ∀ a ∈ ancestors, bundle.get a.vaidId = some a := by
  induction h with
  | root => simp
  | hop _ found _ ih =>
    intro a ha
    rcases List.mem_cons.mp ha with rfl | ha
    · rwa [Keyed.key_of_get found]
    · exact ih a ha

theorem unique {doc : Vaid} {xs ys : List Vaid} (hx : Presents bundle doc xs)
    (hy : Presents bundle doc ys) : xs = ys := by
  induction hx generalizing ys with
  | root noParent =>
    cases hy with
    | root => rfl
    | hop named _ _ => rw [noParent] at named; cases named
  | hop named found _ ih =>
    cases hy with
    | root noParent => rw [noParent] at named; cases named
    | hop named' found' rest =>
      cases named.symm.trans named'
      cases found.symm.trans found'
      exact congrArg _ (ih rest)

theorem insert {doc added : Vaid} {ancestors : List Vaid} (h : Presents bundle doc ancestors)
    (other : added.vaidId ∉ ancestors.map Vaid.vaidId) :
    Presents (Keyed.insert bundle added) doc ancestors := by
  induction h with
  | root noParent => exact .root noParent
  | hop named found _ ih =>
    rw [List.map_cons, List.mem_cons, not_or, Keyed.key_of_get found] at other
    exact .hop named ((Keyed.get_insert_ne _ _ (Ne.symm other.1)).trans found) (ih other.2)

theorem hasAncestry {doc : Vaid} {ancestors : List Vaid} (h : Presents bundle doc ancestors) :
    HasAncestry bundle.resolveParent doc (ancestors.map Vaid.vaidId) := by
  induction h with
  | root noParent =>
    rw [HasAncestry, noParent]
    exact .root
  | @hop doc parent id ancestors named found _ ih =>
    have resolved : LineageResolver.pointers bundle.resolveParent id = some parent.parentVaid := by
      simp only [LineageResolver.pointers, PresentedBundle.resolveParent, found]
      cases parent.parentVaid <;> rfl
    rw [HasAncestry, named, List.map_cons, Keyed.key_of_get found]
    exact .hop resolved ih

end Presents

theorem presents_of_hasAncestry {bundle : PresentedBundle} {doc : Vaid} {path : List VaidId}
    (h : HasAncestry bundle.resolveParent doc path) :
    ∃ ancestors, Presents bundle doc ancestors ∧ ancestors.map Vaid.vaidId = path := by
  unfold HasAncestry at h
  generalize hnext : doc.parentVaid = next at h
  induction h generalizing doc with
  | root => exact ⟨[], .root hnext, rfl⟩
  | @hop id next path known _ ih =>
    simp only [LineageResolver.pointers, PresentedBundle.resolveParent] at known
    cases found : bundle.get id with
    | none => simp [found, ParentResolution.toPointer] at known
    | some parent =>
      have parentNext : parent.parentVaid = next := by
        cases hp : parent.parentVaid <;>
          simpa [found, hp, ParentResolution.toPointer] using known
      obtain ⟨ancestors, presents, ids⟩ := ih parentNext
      exact ⟨parent :: ancestors, .hop hnext found presents,
        by rw [List.map_cons, ids, Keyed.key_of_get found]⟩

section Specification

variable [Crypto] [Chrono]

/-- Authentic under the key that the document's own thumbprint resolves to. -/
def AuthenticUnder (keys : KernelKeyResolver) (doc : Vaid) : Prop :=
  ∃ key, keys doc.kernelKeyThumbprint = some key ∧ Authentic key doc

structure Consented (keys : KernelKeyResolver) (now : Instant) (parent child : Vaid)
    (attestation : ConsentAttestation) : Prop where
  signer : attestation.kernelKeyThumbprint = parent.kernelKeyThumbprint
  domain : attestation.trustDomain = parent.trustDomain
  childDomain : attestation.childTrustDomain = child.trustDomain
  childTenant : attestation.childTenantId = child.tenantId.asStr
  authentic : ∃ key, keys attestation.kernelKeyThumbprint = some key ∧
    verifyAttestationAuthenticity key attestation = true
  current : attestation.isCurrent now = some true
  coversScope : scopeAttenuatesWithin attestation.scopeBoundary child.scopeBoundary = true
  coversCaps : capsAttenuateWithin attestation.capabilitySet child.capabilitySet = true
  heldScope : scopeAttenuates parent attestation.scopeBoundary = true
  heldCaps : capsAttenuate parent attestation.capabilitySet = true

structure HopHolds (keys : KernelKeyResolver) (attestations : AttestationBundle) (now : Instant)
    (parent child : Vaid) : Prop where
  contained : Contained parent child
  sameKey : parent.kernelKeyThumbprint = child.kernelKeyThumbprint →
    parent.trustDomain = child.trustDomain ∧ parent.tenantId = child.tenantId
  crossKey : parent.kernelKeyThumbprint ≠ child.kernelKeyThumbprint →
    ∃ attestation, attestations.get parent.vaidId child.vaidId = some attestation ∧
      Consented keys now parent child attestation

structure VerifiedChain (keys : KernelKeyResolver) (leaf : Vaid) (bundle : PresentedBundle)
    (attestations : AttestationBundle) (now : Instant) (ancestors : List Vaid) : Prop where
  leafAuthentic : AuthenticUnder keys leaf
  bundleAuthentic : ∀ doc ∈ bundle.items, AuthenticUnder keys doc
  presents : Presents bundle leaf ancestors
  distinct : ((leaf :: ancestors).map Vaid.vaidId).Nodup
  short : (leaf :: ancestors).length ≤ maxLineageDepth
  unexpired : ∀ ancestor ∈ ancestors, ancestor.isExpiredAt now = false
  hops : (leaf :: ancestors).IsChain
    (fun child parent => HopHolds keys attestations now parent child)

/-- Between documents of one key a hop does not depend on the instant, nor on any
attestation. -/
theorem HopHolds.ofSameKey {keys keys' : KernelKeyResolver}
    {attestations attestations' : AttestationBundle} {now now' : Instant} {parent child : Vaid}
    (same : parent.kernelKeyThumbprint = child.kernelKeyThumbprint)
    (h : HopHolds keys attestations now parent child) :
    HopHolds keys' attestations' now' parent child :=
  ⟨h.contained, h.sameKey, fun cross => absurd same cross⟩

omit [Chrono] in
theorem authenticUnder_single_iff (publicKey : Bytes) (doc : Vaid) :
    AuthenticUnder (SingleKernelKey.new publicKey) doc ↔ Authentic publicKey doc := by
  unfold AuthenticUnder SingleKernelKey.new
  constructor
  · rintro ⟨key, resolved, authentic⟩
    split at resolved
    · cases resolved
      exact authentic
    · cases resolved
  · intro authentic
    exact ⟨publicKey, if_pos authentic.thumbprint, authentic⟩

omit [Chrono] in
theorem authenticate_iff (keys : KernelKeyResolver) (doc : Vaid) :
    authenticate keys doc = true ↔ AuthenticUnder keys doc := by
  unfold authenticate AuthenticUnder
  cases keys doc.kernelKeyThumbprint with
  | none => simp
  | some key => simp [verifyVaidAuthenticity_iff]

theorem verifyConsent_iff (keys : KernelKeyResolver) (now : Instant) (parent child : Vaid)
    (attestation : ConsentAttestation) :
    verifyConsent keys now parent child attestation = some .attenuated ↔
      Consented keys now parent child attestation := by
  constructor
  · intro h
    unfold verifyConsent at h
    rw [guard_eq_iff (by decide), guard_eq_iff (by decide)] at h
    obtain ⟨parties, identity, h⟩ := h
    rw [not_or, not_not, not_not] at parties identity
    split at h
    · cases h
    · rename_i key resolved
      rw [guard_eq_iff (by decide)] at h
      obtain ⟨authentic, h⟩ := h
      split at h
      · cases h
      · cases h
      · rename_i current
        rw [guard_eq_iff (by decide), guard_eq_iff (by decide)] at h
        obtain ⟨covers, held, _⟩ := h
        simp only [Bool.or_eq_true, Bool.not_eq_true', not_or, Bool.not_eq_false] at covers held
        exact ⟨parties.1, parties.2, identity.1, identity.2,
          ⟨key, resolved, by simpa using authentic⟩, current, covers.1, covers.2, held.1, held.2⟩
  · intro h
    obtain ⟨key, resolved, authentic⟩ := h.authentic
    rw [h.signer] at resolved
    simp [verifyConsent, h.signer, h.domain, h.childDomain, h.childTenant, resolved, authentic,
      h.current, h.coversScope, h.coversCaps, h.heldScope, h.heldCaps]

omit [Crypto] [Chrono] in
theorem tenantAttenuates_iff (parent child : Vaid) :
    tenantAttenuates parent child.trustDomain child.tenantId.asStr = true ↔
      parent.trustDomain = child.trustDomain ∧ parent.tenantId = child.tenantId := by
  have tenants : parent.tenantId.asStr = child.tenantId.asStr ↔ parent.tenantId = child.tenantId :=
    ⟨fun h => congrArg TenantId.mk h, fun h => congrArg TenantId.asStr h⟩
  simp [tenantAttenuates, tenants]

theorem verifyHop_iff (keys : KernelKeyResolver) (attestations : AttestationBundle)
    (now : Instant) (parent child : Vaid) :
    verifyHop keys attestations now parent child = some .attenuated ↔
      HopHolds keys attestations now parent child := by
  unfold verifyHop
  rw [guard_eq_iff (by decide), guard_eq_iff (by decide), guard_eq_iff (by decide),
    guard_eq_iff (by decide)]
  simp only [Bool.not_eq_true', not_and, Bool.not_eq_false, tenantAttenuates_iff]
  by_cases same : parent.kernelKeyThumbprint = child.kernelKeyThumbprint
  · rw [if_pos same]
    constructor
    · rintro ⟨tenant, scope, caps, expiry, _⟩
      exact ⟨⟨scope, caps, expiry⟩, tenant, fun cross => absurd same cross⟩
    · rintro ⟨⟨scope, caps, expiry⟩, tenant, _⟩
      exact ⟨tenant, scope, caps, expiry, rfl⟩
  · rw [if_neg same]
    have consent : (match attestations.get parent.vaidId child.vaidId with
        | none => some .inauthentic
        | some attestation => verifyConsent keys now parent child attestation) =
          some .attenuated ↔ ∃ attestation,
        attestations.get parent.vaidId child.vaidId = some attestation ∧
          Consented keys now parent child attestation := by
      cases attestations.get parent.vaidId child.vaidId with
      | none => simp
      | some attestation => simp [verifyConsent_iff]
    rw [consent]
    constructor
    · rintro ⟨tenant, scope, caps, expiry, crossKey⟩
      exact ⟨⟨scope, caps, expiry⟩, tenant, fun _ => crossKey⟩
    · rintro ⟨⟨scope, caps, expiry⟩, tenant, crossKey⟩
      exact ⟨tenant, scope, caps, expiry, crossKey same⟩

theorem verifyHops_iff (keys : KernelKeyResolver) (attestations : AttestationBundle)
    (now : Instant) (docs : List Vaid) :
    verifyHops keys attestations now docs = some .attenuated ↔
      docs.IsChain (HopHolds keys attestations now) := by
  induction docs with
  | nil => simp [verifyHops]
  | cons parent docs ih =>
    cases docs with
    | nil => simp [verifyHops]
    | cons child docs =>
      rw [List.isChain_cons_cons, ← ih, ← verifyHop_iff, verifyHops]
      split
      · rename_i held
        simp [held]
      · rename_i refused
        exact ⟨fun h => absurd h refused, fun h => absurd h.1 refused⟩

omit [Crypto] [Chrono] in
theorem mapM_chainDoc (leaf : Vaid) (bundle : PresentedBundle) (docs : List Vaid)
    (resolved : ∀ d ∈ docs, chainDoc leaf bundle d.vaidId = some d) :
    (docs.map Vaid.vaidId).mapM (chainDoc leaf bundle) = some docs := by
  induction docs with
  | nil => rfl
  | cons d docs ih =>
    rw [List.map_cons, List.mapM_cons, resolved d List.mem_cons_self,
      ih (fun d hd => resolved d (List.mem_cons_of_mem _ hd))]
    rfl

/-- Once every document authenticates and the ancestry assembles, the verdict is
decided by ancestor expiry and by the hops. -/
theorem verifyChainAt_of_presents (keys : KernelKeyResolver) (leaf : Vaid)
    (bundle : PresentedBundle) (attestations : AttestationBundle) (now : Instant)
    (leafAuthentic : AuthenticUnder keys leaf)
    (bundleAuthentic : ∀ doc ∈ bundle.items, AuthenticUnder keys doc) {ancestors : List Vaid}
    (presents : Presents bundle leaf ancestors)
    (distinct : ((leaf :: ancestors).map Vaid.vaidId).Nodup)
    (short : (leaf :: ancestors).length ≤ maxLineageDepth) :
    verifyChainAt keys leaf bundle attestations now =
      if ancestors.any (fun ancestor => ancestor.isExpiredAt now) then some .expired
      else verifyHops keys attestations now (leaf :: ancestors).reverse := by
  have everyDoc : bundle.items.all (authenticate keys) = true :=
    List.all_eq_true.mpr (fun doc hd => (authenticate_iff keys doc).mpr (bundleAuthentic doc hd))
  have assembled : assembleLineage leaf bundle.resolveParent =
      .complete ((leaf :: ancestors).reverse.map Vaid.vaidId) :=
    (assembleLineage_eq_complete_iff _ _ _).mpr
      ⟨_, presents.hasAncestry, distinct, by simpa using short, by simp⟩
  have resolved : ∀ d ∈ (leaf :: ancestors).reverse, chainDoc leaf bundle d.vaidId = some d := by
    intro d hd
    rcases List.mem_cons.mp (List.mem_reverse.mp hd) with rfl | hd
    · exact if_pos rfl
    · have other : d.vaidId ≠ leaf.vaidId := fun h =>
        (List.nodup_cons.mp distinct).1 (h ▸ List.mem_map_of_mem hd)
      exact (if_neg other).trans (presents.mem_items d hd)
  unfold verifyChainAt
  simp only [(authenticate_iff keys leaf).mpr leafAuthentic, everyDoc, assembled,
    mapM_chainDoc leaf bundle _ resolved, Bool.not_true, Bool.false_eq_true, if_false]
  rw [List.reverse_cons, List.dropLast_concat, List.any_reverse]

theorem verifiedChain_of_attenuated {keys : KernelKeyResolver} {leaf : Vaid}
    {bundle : PresentedBundle} {attestations : AttestationBundle} {now : Instant}
    (attenuated : verifyChainAt keys leaf bundle attestations now = some .attenuated) :
    ∃ ancestors, VerifiedChain keys leaf bundle attestations now ancestors := by
  have h := attenuated
  unfold verifyChainAt at h
  rw [guard_eq_iff (by decide), guard_eq_iff (by decide)] at h
  obtain ⟨leafOk, bundleOk, h⟩ := h
  have leafAuthentic : AuthenticUnder keys leaf := (authenticate_iff keys leaf).mp (by simpa using leafOk)
  have bundleAuthentic : ∀ doc ∈ bundle.items, AuthenticUnder keys doc := by
    have all_ : bundle.items.all (authenticate keys) = true := by simpa using bundleOk
    exact fun doc hd => (authenticate_iff keys doc).mp (List.all_eq_true.mp all_ doc hd)
  cases assembled : assembleLineage leaf bundle.resolveParent with
  | incomplete => simp [assembled] at h
  | complete chainIds =>
    obtain ⟨path, ancestry, distinct, short, _⟩ :=
      (assembleLineage_eq_complete_iff _ _ _).mp assembled
    obtain ⟨ancestors, presents, rfl⟩ := presents_of_hasAncestry ancestry
    have short' : (leaf :: ancestors).length ≤ maxLineageDepth := by simpa using short
    rw [verifyChainAt_of_presents keys leaf bundle attestations now leafAuthentic bundleAuthentic
      presents distinct short', guard_eq_iff (by decide)] at attenuated
    obtain ⟨unexpired, hops⟩ := attenuated
    refine ⟨ancestors, leafAuthentic, bundleAuthentic, presents, distinct, short', ?_, ?_⟩
    · intro ancestor member
      exact Bool.eq_false_iff.mpr
        (fun expired => unexpired (List.any_eq_true.mpr ⟨ancestor, member, expired⟩))
    · exact List.isChain_reverse.mp ((verifyHops_iff _ _ _ _).mp hops)

theorem attenuated_of_verifiedChain {keys : KernelKeyResolver} {leaf : Vaid}
    {bundle : PresentedBundle} {attestations : AttestationBundle} {now : Instant}
    {ancestors : List Vaid}
    (verified : VerifiedChain keys leaf bundle attestations now ancestors) :
    verifyChainAt keys leaf bundle attestations now = some .attenuated := by
  have unexpired : ¬ ancestors.any (fun ancestor => ancestor.isExpiredAt now) = true := by
    intro h
    obtain ⟨ancestor, member, expired⟩ := List.any_eq_true.mp h
    rw [verified.unexpired ancestor member] at expired
    cases expired
  rw [verifyChainAt_of_presents keys leaf bundle attestations now verified.leafAuthentic
    verified.bundleAuthentic verified.presents verified.distinct verified.short, if_neg unexpired]
  exact (verifyHops_iff _ _ _ _).mpr (List.isChain_reverse.mpr verified.hops)

/-- Down a verified chain authority only narrows: every document is contained in
every document above it. -/
theorem VerifiedChain.contained {keys : KernelKeyResolver} {leaf : Vaid}
    {bundle : PresentedBundle} {attestations : AttestationBundle} {now : Instant}
    {ancestors : List Vaid}
    (verified : VerifiedChain keys leaf bundle attestations now ancestors) :
    (leaf :: ancestors).Pairwise (fun child ancestor => Contained ancestor child) := by
  have transitive : Trans (fun child ancestor : Vaid => Contained ancestor child)
      (fun child ancestor => Contained ancestor child)
      (fun child ancestor => Contained ancestor child) := ⟨fun hab hbc => hbc.trans hab⟩
  exact List.isChain_iff_pairwise.mp (verified.hops.imp (fun _ _ hop => hop.contained))

/-- Chain verification is sound and complete, and authority is contained along the
whole of an attenuated chain and not only at its hops. -/
theorem verifyChainAt_sound_complete (keys : KernelKeyResolver) (leaf : Vaid)
    (bundle : PresentedBundle) (attestations : AttestationBundle) (now : Instant) :
    (verifyChainAt keys leaf bundle attestations now = some .attenuated ↔
      ∃ ancestors, VerifiedChain keys leaf bundle attestations now ancestors) ∧
    (verifyChainAt keys leaf bundle attestations now = some .attenuated →
      ∃ ancestors, Presents bundle leaf ancestors ∧
        (leaf :: ancestors).Pairwise (fun child ancestor =>
          (∀ resource, child.isInScope resource = true → ancestor.isInScope resource = true) ∧
          child.capabilitySet ⊆ ancestor.capabilitySet ∧
          ∃ a c, ancestor.expiresAt = some a ∧ child.expiresAt = some c ∧ c ≤ a)) := by
  refine ⟨⟨verifiedChain_of_attenuated, fun ⟨_, verified⟩ => attenuated_of_verifiedChain verified⟩,
    fun attenuated => ?_⟩
  obtain ⟨ancestors, verified⟩ := verifiedChain_of_attenuated attenuated
  exact ⟨ancestors, verified.presents, verified.contained.imp (fun h =>
    ⟨fun _ held => h.isInScope held, h.hasCapability, h.expiresAt⟩)⟩

end Specification

end VaidSuite
