import VaidSuite.Chain
import VaidSuite.MintSpec

/-! A child the mint returns against the chain verifier: the chain of its parent,
extended by one document. -/
namespace VaidSuite.MintChain

open MintService (Call)

section Chain

variable [Crypto] [Chrono] {L R A : Type} [LineageStore L] [AuditSink A]

/-- What the mint establishes about a child, in the verifier's terms. -/
structure Minted (issuer : ReferenceIssuer L R) (now : Instant) (parent child : Vaid) : Prop where
  authentic : Authentic issuer.kernelPublicKey child
  link : child.parentVaid = some parent.vaidId
  contained : Contained parent child
  tenant : parent.tenantId = child.tenantId
  domain : child.trustDomain = issuer.trustDomain.val
  alive : parent.isExpiredAt now = false

theorem minted_of_mintChild (verify : Crypto.SignaturesVerify) {env : MintEnv}
    {request : MintVaidRequest} {parent : Vaid} {response : MintVaidResponse}
    {s s' : MintService L R A}
    (returned : (MintService.mintChild env request (some parent) : Call L R A MintVaidResponse).run s =
      (.ok response, s')) :
    Minted s.issuer env.parentNow parent response.vaid ∧
      response.vaid.vaidId = ⟨env.issue.agentId.uuid⟩ := by
  obtain ⟨_, key, pop, expires, audit, ⟨⟩, delegable, _, signed, expiry, _⟩ :=
    (MintService.run_mintChild_iff _ _ _ _ _ _).mp returned
  rw [← signed] at expiry ⊢
  refine ⟨⟨?_, ?_, ⟨delegable.scope, delegable.caps, expiry⟩, congrArg TenantId.mk delegable.tenant,
    rfl, delegable.alive⟩, rfl⟩
  · exact ReferenceIssuer.authentic_signedVaid verify _ _ _ _ _
  · exact (ReferenceIssuer.parentVaid_signedVaid _ _ _ _ _).trans delegable.lineage

omit [Crypto] [Chrono] in
theorem presents_child {bundle : PresentedBundle} {parent child : Vaid} {ancestors : List Vaid}
    (presents : Presents bundle parent ancestors)
    (distinct : ((parent :: ancestors).map Vaid.vaidId).Nodup)
    (link : child.parentVaid = some parent.vaidId) :
    Presents (Keyed.insert bundle parent) child (parent :: ancestors) :=
  .hop link (Keyed.get_insert _ _) (presents.insert (List.nodup_cons.mp distinct).1)

omit [LineageStore L] in
/-- Once the parent's chain verifies, the child's verifies exactly when no document
above it has expired and the parent is of the issuer's own trust domain. -/
theorem verifyChainAt_child_iff {issuer : ReferenceIssuer L R} {bundle : PresentedBundle}
    {parent child : Vaid} {ancestors : List Vaid} {t now : Instant}
    (verified : VerifiedChain (SingleKernelKey.new issuer.kernelPublicKey) parent bundle
      AttestationBundle.empty t ancestors)
    (minted : Minted issuer now parent child)
    (fresh : ∀ doc ∈ parent :: ancestors, doc.vaidId ≠ child.vaidId)
    (short : ancestors.length + 2 ≤ maxLineageDepth) (u : Instant) :
    verifyChainAt (SingleKernelKey.new issuer.kernelPublicKey) child (Keyed.insert bundle parent)
        AttestationBundle.empty u = some .attenuated ↔
      (∀ doc ∈ parent :: ancestors, doc.isExpiredAt u = false) ∧
        parent.trustDomain = issuer.trustDomain.val := by
  have bundleAuthentic : ∀ doc ∈ (Keyed.insert bundle parent).items,
      AuthenticUnder (SingleKernelKey.new issuer.kernelPublicKey) doc := by
    intro doc member
    rcases (Keyed.mem_insert_iff _ _ _).mp member with rfl | ⟨member, _⟩
    · exact verified.leafAuthentic
    · exact verified.bundleAuthentic doc member
  have presents := presents_child verified.presents verified.distinct minted.link
  have distinct : ((child :: parent :: ancestors).map Vaid.vaidId).Nodup := by
    refine List.nodup_cons.mpr ⟨fun member => ?_, verified.distinct⟩
    obtain ⟨doc, hdoc, same⟩ := List.mem_map.mp member
    exact fresh doc hdoc same
  -- every document of the chain carries the one thumbprint
  have sameKey : parent.kernelKeyThumbprint = child.kernelKeyThumbprint :=
    ((authenticUnder_single_iff _ _).mp verified.leafAuthentic).thumbprint.trans
      minted.authentic.thumbprint.symm
  have thumbprint : ∀ doc ∈ parent :: ancestors,
      doc.kernelKeyThumbprint = kernelKeyThumbprint issuer.kernelPublicKey := by
    intro doc member
    rcases List.mem_cons.mp member with rfl | member
    · exact ((authenticUnder_single_iff _ _).mp verified.leafAuthentic).thumbprint
    · have filed := Keyed.mem_of_get (verified.presents.mem_items doc member)
      exact ((authenticUnder_single_iff _ _).mp (verified.bundleAuthentic doc filed)).thumbprint
  rw [verifyChainAt_of_presents _ _ _ _ _ ((authenticUnder_single_iff _ _).mpr minted.authentic)
    bundleAuthentic presents distinct short, Guards.guard_eq_iff (by decide),
    verifyHops_iff, List.isChain_reverse, List.isChain_cons_cons]
  have unexpired : ¬ (parent :: ancestors).any (fun doc => doc.isExpiredAt u) = true ↔
      ∀ doc ∈ parent :: ancestors, doc.isExpiredAt u = false := by
    simp [List.any_eq_true]
  rw [unexpired]
  constructor
  · rintro ⟨alive, hop, _⟩
    exact ⟨alive, (hop.sameKey sameKey).1.trans minted.domain⟩
  · rintro ⟨alive, domain⟩
    refine ⟨alive, ⟨minted.contained, fun _ => ⟨domain.trans minted.domain.symm, minted.tenant⟩,
      fun cross => absurd sameKey cross⟩, ?_⟩
    refine verified.hops.imp_of_mem_imp (fun nearer farther hn hf hop => ?_)
    exact hop.ofSameKey ((thumbprint farther hf).trans (thumbprint nearer hn).symm)

/-- Whatever the mint returns under a parent whose chain verifies, its own verifier
accepts then and as long as no document above the child expires, exactly when the
parent carries the issuer's own trust domain. -/
theorem minted_child_verifies_iff (verify : Crypto.SignaturesVerify) {s s' : MintService L R A}
    {env : MintEnv} {request : MintVaidRequest} {parent : Vaid} {response : MintVaidResponse}
    {bundle : PresentedBundle} {ancestors : List Vaid}
    (attenuated : verifyChainAt (SingleKernelKey.new s.issuer.kernelPublicKey) parent bundle
      AttestationBundle.empty env.parentNow = some .attenuated)
    (presents : Presents bundle parent ancestors)
    (returned : (MintService.mintChild env request (some parent) : Call L R A MintVaidResponse).run s =
      (.ok response, s'))
    (fresh : ∀ doc ∈ parent :: ancestors, doc.vaidId ≠ ⟨env.issue.agentId.uuid⟩)
    (short : ancestors.length + 2 ≤ maxLineageDepth) :
    (∀ u, env.parentNow ≤ u →
        (u = env.parentNow ∨ ∀ doc ∈ parent :: ancestors, doc.isExpiredAt u = false) →
        verifyChainAt (SingleKernelKey.new s.issuer.kernelPublicKey) response.vaid
          (Keyed.insert bundle parent) AttestationBundle.empty u = some .attenuated) ↔
      parent.trustDomain = s.issuer.trustDomain.val := by
  obtain ⟨ancestors', verified⟩ := verifiedChain_of_attenuated attenuated
  cases verified.presents.unique presents
  obtain ⟨minted, id⟩ := minted_of_mintChild verify returned
  have child := verifyChainAt_child_iff verified minted (by rwa [id]) short
  constructor
  · intro accepted
    exact ((child _).mp (accepted _ (le_refl _) (.inl rfl))).2
  · rintro domain u _ (rfl | alive)
    · refine (child _).mpr ⟨fun doc member => ?_, domain⟩
      rcases List.mem_cons.mp member with rfl | member
      · exact minted.alive
      · exact verified.unexpired doc member
    · exact (child u).mpr ⟨alive, domain⟩

end Chain

section Example

local instance childCrypto : Crypto := .standIn

local instance childChrono : Chrono :=
  .table [(1893456000, "2030-01-01T00:00:00Z"), (1893459600, "2030-01-01T01:00:00Z")]

def exampleDomain : TrustDomain := ⟨"vaid.example", isValidTrustDomain_example⟩
def otherDomain : TrustDomain := ⟨"other.example", by decide⟩

def instanceOf (domain : TrustDomain) :
    ReferenceIssuer InMemoryLineageStore InMemoryRevocationList :=
  .withKey ⟨[1]⟩ 1 domain

def exampleService : MintService InMemoryLineageStore InMemoryRevocationList InMemoryAudit :=
  .new (instanceOf exampleDomain) ⟨[]⟩

def exampleNow : Instant := ⟨1893456000, 0⟩

/-- A root that an instance of the issuer minted earlier. -/
def exampleParent (domain : TrustDomain) : Vaid :=
  (instanceOf domain).signedVaid ⟨⟨.fromU128 1⟩, exampleNow, ⟨[2]⟩⟩
    ⟨⟨"researcher"⟩, "1.0.0", ⟨"acme"⟩, none, [], []⟩ [2] ⟨1893459600, 0⟩

def exampleSeed : VaidSeed :=
  ⟨"researcher", "1.0.0", "acme", some ⟨.fromU128 1⟩, [], [], some [2]⟩

def exampleRequest : MintVaidRequest :=
  ⟨exampleSeed, some ⟨"n", exampleNow, signPayload (exampleSeed.popPayload [2] "n" exampleNow).toJson
    ⟨[2]⟩⟩⟩

def exampleEnv : MintEnv := ⟨permitAll, exampleNow, exampleNow, ⟨⟨.fromU128 2⟩, exampleNow, ⟨[2]⟩⟩⟩

def exampleChild : Vaid :=
  (instanceOf exampleDomain).signedVaid exampleEnv.issue exampleSeed.attributes [2] ⟨1893459600, 0⟩

def exampleResponse : MintVaidResponse := ⟨exampleChild, true, some "2030-01-01T01:00:00Z"⟩

theorem exampleParent_presents (domain : TrustDomain) :
    Presents PresentedBundle.empty (exampleParent domain) [] :=
  .root (ReferenceIssuer.parentVaid_signedVaid _ _ _ _ _)

theorem exampleParent_attenuated (domain : TrustDomain) :
    verifyChainAt (SingleKernelKey.new exampleService.issuer.kernelPublicKey) (exampleParent domain)
      PresentedBundle.empty AttestationBundle.empty exampleNow = some .attenuated := by
  have authentic : Authentic (instanceOf domain).kernelPublicKey (exampleParent domain) :=
    ReferenceIssuer.authentic_signedVaid Crypto.standIn_signaturesVerify _ _ _ _ _
  have leaf : AuthenticUnder (SingleKernelKey.new exampleService.issuer.kernelPublicKey)
      (exampleParent domain) := (authenticUnder_single_iff _ _).mpr authentic
  have short : 1 ≤ maxLineageDepth := by decide
  have verified : VerifiedChain (SingleKernelKey.new exampleService.issuer.kernelPublicKey)
      (exampleParent domain) PresentedBundle.empty AttestationBundle.empty exampleNow [] :=
    ⟨leaf, by rintro _ ⟨⟩, exampleParent_presents domain, List.nodup_singleton _, short, by simp,
      .singleton _⟩
  exact attenuated_of_verifiedChain verified

theorem example_returned (domain : TrustDomain) : ∃ s',
    (MintService.mintChild exampleEnv exampleRequest (some (exampleParent domain)) :
      Call InMemoryLineageStore InMemoryRevocationList InMemoryAudit MintVaidResponse).run
        exampleService = (.ok exampleResponse, s') := by
  have possession : MintService.ProvesPossession exampleNow exampleSeed [2]
      ⟨"n", exampleNow, signPayload (exampleSeed.popPayload [2] "n" exampleNow).toJson ⟨[2]⟩⟩ :=
    ⟨by decide, verifySignedPayload_signPayload Crypto.standIn_signaturesVerify _ ⟨[2]⟩⟩
  have depth : assembleLineage (exampleParent domain) exampleService.issuer.resolveParent =
      .complete [⟨.fromU128 1⟩] := by
    have parentless : (exampleParent domain).parentVaid = none :=
      ReferenceIssuer.parentVaid_signedVaid _ _ _ _ _
    rw [assembleLineage, parentless]
    rfl
  exact ⟨_, (MintService.run_mintChild_iff _ _ _ _ _ _).mpr
    ⟨exampleParent domain, [2], _, ⟨1893459600, 0⟩, _, rfl,
      ⟨⟨_, depth, by decide⟩, rfl, rfl, rfl, rfl, rfl⟩,
      ⟨rfl, rfl, possession, Finset.notMem_empty _, rfl, rfl⟩, rfl, rfl, rfl, rfl, rfl, rfl⟩⟩

theorem exampleChild_verifies_iff :
    (∀ u, exampleNow ≤ u → (u = exampleNow ∨
        ∀ doc ∈ [exampleParent exampleDomain], doc.isExpiredAt u = false) →
        verifyChainAt (SingleKernelKey.new exampleService.issuer.kernelPublicKey) exampleChild
          (Keyed.insert PresentedBundle.empty (exampleParent exampleDomain)) AttestationBundle.empty u =
            some .attenuated) ↔
      (exampleParent exampleDomain).trustDomain = exampleService.issuer.trustDomain.val := by
  obtain ⟨_, returned⟩ := example_returned exampleDomain
  refine minted_child_verifies_iff Crypto.standIn_signaturesVerify
    (exampleParent_attenuated exampleDomain) (exampleParent_presents exampleDomain) returned ?_
    (by decide)
  intro doc member
  rw [List.mem_singleton.mp member]
  decide

/-- Under a parent of another domain the mint returns a child that its own verifier
refuses. -/
theorem otherDomainChild_refused :
    verifyChainAt (SingleKernelKey.new exampleService.issuer.kernelPublicKey)
        (exampleParent otherDomain) PresentedBundle.empty AttestationBundle.empty exampleNow =
          some .attenuated ∧
      (∃ s', (MintService.mintChild exampleEnv exampleRequest (some (exampleParent otherDomain)) :
        Call InMemoryLineageStore InMemoryRevocationList InMemoryAudit MintVaidResponse).run
          exampleService = (.ok exampleResponse, s')) ∧
      verifyChainAt (SingleKernelKey.new exampleService.issuer.kernelPublicKey) exampleResponse.vaid
        (Keyed.insert PresentedBundle.empty (exampleParent otherDomain)) AttestationBundle.empty
          exampleNow ≠ some .attenuated := by
  refine ⟨exampleParent_attenuated otherDomain, example_returned otherDomain, fun accepted => ?_⟩
  obtain ⟨_, returned⟩ := example_returned otherDomain
  obtain ⟨ancestors, verified⟩ := verifiedChain_of_attenuated (exampleParent_attenuated otherDomain)
  cases verified.presents.unique (exampleParent_presents otherDomain)
  obtain ⟨minted, _⟩ := minted_of_mintChild Crypto.standIn_signaturesVerify returned
  have domain := ((verifyChainAt_child_iff verified minted ?_ (by decide) exampleNow).mp accepted).2
  · exact absurd domain (by decide)
  · intro doc member
    rw [List.mem_singleton.mp member]
    decide

end Example

end VaidSuite.MintChain
