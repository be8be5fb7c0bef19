import VaidSuite.TypeScript.MintPool

/-! Chains of documents that one TypeScript mint returned, whatever its calls were interleaved
with: a verifier that accepts the kernel key accepts them until an ancestor expires. -/
namespace VaidSuite.TypeScript.MintPool

open VaidSuite.TypeScript.MintService (Attenuates Call)

section Descents

variable [Runtime] {key : Bytes} {keys : KernelKeyResolver}

theorem of_graded_valid {d : Members} (valid : verifyVaidAuthenticityGraded key (.obj d) = .ok .valid) :
    hasShape d = true ∧ ∃ t, kernelKeyThumbprint key = .ok t ∧
      d.get "kernel_key_thumbprint" = .str t := by
  obtain ⟨_, returned, rest⟩ := Raising.of_bind_eq_ok valid
  obtain ⟨shape, rfl⟩ := of_requireVaidShape returned
  refine ⟨shape, ?_⟩
  split at rest
  · cases rest
  split at rest
  · cases rest
  obtain ⟨t, named, rest⟩ := Raising.of_bind_eq_ok rest
  refine ⟨t, named, ?_⟩
  split at rest
  · cases rest
  · rename_i same
    cases own : d.get "kernel_key_thumbprint" with
    | str s =>
      rw [own] at same
      simpa using same
    | _ =>
      rw [own] at same
      exact absurd rfl same

theorem authenticate_of_valid (made : SingleKernelKey.new key = .ok keys) {d : Members}
    (valid : verifyVaidAuthenticityGraded key (.obj d) = .ok .valid) :
    authenticate keys d = .ok true := by
  obtain ⟨_, t, named, own⟩ := of_graded_valid valid
  obtain ⟨_, same, made⟩ := Raising.of_bind_eq_ok made
  cases named.symm.trans same
  cases made
  rw [authenticate, own]
  simp only [JsValue.strictEq_str, beq_self_eq_true, if_true, verifyVaidAuthenticity, valid,
    Raising.ok_bind]
  rfl

theorem verifyHop_of_attenuates {parent child : Members} {t domain : JsStr} {now : Int}
    (parentKey : parent.get "kernel_key_thumbprint" = .str t)
    (childKey : child.get "kernel_key_thumbprint" = .str t)
    (parentDomain : parent.get "trust_domain" = .str domain)
    (childDomain : child.get "trust_domain" = .str domain) (within : Attenuates parent child) :
    verifyHop keys .empty now parent child = .ok .attenuated := by
  have tenant : tenantAttenuates parent (.str domain) (child.get "tenant_id") = true := by
    rw [tenantAttenuates, parentDomain, JsValue.strictEq_str, beq_self_eq_true, within.tenant]
    rfl
  unfold verifyHop
  simp only [parentKey, childKey, childDomain, JsValue.strictEq_str, beq_self_eq_true, tenant,
    within.scope, within.caps, within.expiry, Raising.ok_bind]
  rfl

theorem verifyHops_of_isChain {now : Int} {docs : List Members} (hops : docs.IsChain (fun parent child =>
    verifyHop keys .empty now parent child = .ok .attenuated)) :
    verifyHops keys .empty now docs = .ok .attenuated := by
  induction docs with
  | nil => rfl
  | cons parent docs ih =>
    cases docs with
    | nil => rfl
    | cons child docs =>
      obtain ⟨hop, rest⟩ := List.isChain_cons_cons.mp hops
      rw [verifyHops, hop, Raising.ok_bind]
      exact ih rest

/-- Every parent has an expiry that can be read, so there is a time at which all are alive. -/
theorem exists_alive {leaf : Members} {ancestors : List Members}
    (linked : (leaf :: ancestors).IsChain (fun child parent => Attenuates parent child)) :
    ∃ now, ∀ a ∈ ancestors, isExpired a now = false := by
  induction ancestors generalizing leaf with
  | nil => exact ⟨0, by simp⟩
  | cons parent ancestors ih =>
    obtain ⟨within, above⟩ := List.isChain_cons_cons.mp linked
    obtain ⟨now, alive⟩ := ih above
    have expiry := within.expiry
    unfold expiryAttenuates at expiry
    cases read : parseRfc3339 (parent.get "expires_at") with
    | none =>
      rw [read] at expiry
      cases expiry
    | some expires =>
      refine ⟨min now expires, List.forall_mem_cons.mpr ⟨by simp [isExpired, read], ?_⟩⟩
      intro a member
      have before := alive a member
      unfold isExpired at before ⊢
      cases limit : parseRfc3339 (a.get "expires_at") with
      | none =>
        rw [limit] at before
        cases before
      | some limit' =>
        rw [limit] at before
        simp only [decide_eq_false_iff_not] at before ⊢
        omega

omit [Runtime] in
theorem parentOf_of_link {parent child : Members} (shape : hasShape parent = true)
    (link : (child.get "parent_vaid").strictEq (parent.get "vaid_id") = true) :
    parentOf child = some (vaidIdOf parent) := by
  unfold hasShape at shape
  unfold parentOf vaidIdOf
  cases named : parent.get "vaid_id" with
  | str id =>
    rw [named] at link
    cases bound : child.get "parent_vaid" with
    | str s =>
      rw [bound, JsValue.strictEq_str, beq_iff_eq] at link
      rw [link]
    | _ =>
      rw [bound] at link
      cases link
  | _ =>
    rw [named] at shape
    cases shape

/-- A leaf and its ancestors, nearest first: authentic under one key, and each within the next, up
to a root. -/
structure Descent (key : Bytes) (domain : JsStr) (leaf : Members) (ancestors : List Members) : Prop where
  authentic : ∀ d ∈ leaf :: ancestors, verifyVaidAuthenticityGraded key (.obj d) = .ok .valid
  domain : ∀ d ∈ leaf :: ancestors, d.get "trust_domain" = .str domain
  linked : (leaf :: ancestors).IsChain (fun child parent => Attenuates parent child)
  rooted : ∀ root ∈ (leaf :: ancestors).getLast?, parentOf root = none
  distinct : ((leaf :: ancestors).map vaidIdOf).Nodup

namespace Descent

variable {domain : JsStr} {leaf : Members} {ancestors documents : List Members}

theorem hops (h : Descent key domain leaf ancestors) (now : Int) :
    (leaf :: ancestors).IsChain (fun child parent =>
      verifyHop keys .empty now parent child = .ok .attenuated) := by
  have same : ∀ d ∈ leaf :: ancestors, ∀ t, kernelKeyThumbprint key = .ok t →
      d.get "kernel_key_thumbprint" = .str t := by
    intro d member t named
    obtain ⟨_, _, named', own⟩ := of_graded_valid (h.authentic d member)
    cases named.symm.trans named'
    exact own
  obtain ⟨_, t, named, _⟩ := of_graded_valid (h.authentic leaf List.mem_cons_self)
  refine List.IsChain.imp_of_mem_imp (fun child parent hc hp within => ?_) h.linked
  exact verifyHop_of_attenuates (same parent hp t named) (same child hc t named) (h.domain parent hp)
    (h.domain child hc) within

theorem isLineage (h : Descent key domain leaf ancestors) (short : ancestors.length < maxLineageDepth)
    (presented : ∀ a ∈ ancestors, (bundleOf documents).lookup (vaidIdOf a) = some a) :
    (presentation leaf documents).IsLineage maxLineageDepth ancestors where
  presented := presented
  linked := List.IsChain.imp_of_mem_imp (fun _ parent _ member within =>
    parentOf_of_link (of_graded_valid (h.authentic parent member)).1 within.link) h.linked
  rooted := h.rooted
  distinct := h.distinct
  short := short

theorem verifyChainAt (h : Descent key domain leaf ancestors) (short : ancestors.length < maxLineageDepth)
    (made : SingleKernelKey.new key = .ok keys)
    (presented : ∀ a ∈ ancestors, (bundleOf documents).lookup (vaidIdOf a) = some a)
    (authentic : ∀ d ∈ documents, verifyVaidAuthenticityGraded key (.obj d) = .ok .valid) (now : Int) :
    TypeScript.verifyChainAt keys (.obj leaf) (bundleOf documents) .empty now =
      .ok (if ancestors.any (fun a => isExpired a now) then .expired else .attenuated) := by
  obtain ⟨early, alive⟩ := exists_alive h.linked
  have ancestry : (leaf :: ancestors).reverse.dropLast = ancestors.reverse := by
    rw [List.reverse_cons, List.dropLast_concat]
  have attenuated : Attenuated keys leaf documents early (leaf :: ancestors).reverse := by
    refine ⟨(of_graded_valid (h.authentic leaf List.mem_cons_self)).1, ?_, ?_, ?_, ?_⟩
    · refine List.forall_mem_cons.mpr
        ⟨authenticate_of_valid made (h.authentic leaf List.mem_cons_self), fun d member => ?_⟩
      obtain ⟨e, listed, rfl⟩ := List.mem_map.mp member
      exact authenticate_of_valid made (authentic _ (InsertionMap.mem_ofList listed).2)
    · exact (Presentation.lineage_eq_some_iff _ (by decide)).mpr
        ⟨ancestors, h.isLineage short presented, rfl⟩
    · rw [ancestry]
      exact fun d member => alive d (List.mem_reverse.mp member)
    · exact verifyHops_of_isChain (List.isChain_reverse.mpr (h.hops early))
  rw [attenuated.verifyChainAt now, ancestry, List.any_reverse]

end Descent

end Descents

/-! ### Chains of returned documents -/

def Op.parent : Op → Option Members
  | mintRoot _ _ => none
  | mintChild _ _ parent => parent

theorem attenuates_of_parent [Runtime] {op : Op} {parent vaid : Members} (presented : op.parent = some parent)
    (authorized : op.Authorized vaid) : Attenuates parent vaid := by
  cases op with
  | mintRoot env request => cases presented
  | mintChild env request other =>
    obtain ⟨p, delegates⟩ := authorized
    cases presented.symm.trans delegates.parent
    exact delegates.toAttenuates

section Chains

variable [Runtime] [Ed25519] {L R A : Type} [LineageStore L] [LawfulLineageStore L] [AuditSink A]
  {ι : Type}

/-- A call has returned the document. -/
def HasIssued (pool : Pool ι (MintService L R A) (Outcome MintError MintVaidResponse)) (i : ι)
    (vaid : Members) : Prop :=
  ∃ response, pool.Returned i (.ok response) ∧ response.vaid = vaid

/-- Calls and what they returned, leaf first. Each presented the next document as its parent, and
the last one asked for none. -/
structure Line (calls : ι → Op) (pool : Pool ι (MintService L R A) (Outcome MintError MintVaidResponse))
    (line : List (ι × Members)) : Prop where
  issued : ∀ e ∈ line, HasIssued pool e.1 e.2
  linked : line.IsChain (fun child parent => (calls child.1).parent = some parent.2)
  rooted : ∀ e ∈ line.getLast?, (calls e.1).request.seed.parentVaid = none

variable [DecidableEq ι] {service : MintService L R A} {calls : ι → Op} {schedule : List ι}

theorem HasIssued.eq_of_vaidId (signing : SigningKey service.issuer.kernelSeed)
    (fresh : Function.Injective (fun i => (calls i).env.issue.vaidId)) {i j : ι} {d d' : Members}
    (has : HasIssued ((mintPool service calls).run schedule) i d)
    (has' : HasIssued ((mintPool service calls).run schedule) j d')
    (same : vaidIdOf d = vaidIdOf d') : d = d' := by
  obtain ⟨response, returned, rfl⟩ := has
  obtain ⟨response', returned', rfl⟩ := has'
  have named := (returned_document signing returned).2.2.issued.vaidId
  have named' := (returned_document signing returned').2.2.issued.vaidId
  rw [vaidIdOf, vaidIdOf, named, named'] at same
  cases fresh (Option.some.inj same : (calls i).env.issue.vaidId = (calls j).env.issue.vaidId)
  cases returned.symm.trans returned'
  rfl

theorem Line.descent (signing : SigningKey service.issuer.kernelSeed)
    (fresh : Function.Injective (fun i => (calls i).env.issue.vaidId)) {leaf : ι × Members}
    {ancestors : List (ι × Members)}
    (h : Line calls ((mintPool service calls).run schedule) (leaf :: ancestors)) :
    Descent service.issuer.kernelPublicKey service.issuer.trustDomain.val leaf.2
      (ancestors.map Prod.snd) := by
  have document : ∀ e ∈ leaf :: ancestors, (calls e.1).Authorized e.2 ∧
      service.issuer.IssuedAs (calls e.1).env.issue (seedAttributes (calls e.1).request.seed) e.2 := by
    intro e member
    obtain ⟨response, returned, same⟩ := h.issued e member
    obtain ⟨authorized, _, issued⟩ := returned_document signing returned
    exact ⟨same ▸ authorized, same ▸ issued.issued⟩
  have documents : (leaf :: ancestors).map Prod.snd = leaf.2 :: ancestors.map Prod.snd := rfl
  have each : ∀ d ∈ leaf.2 :: ancestors.map Prod.snd, ∃ e ∈ leaf :: ancestors, e.2 = d :=
    fun d member => List.mem_map.mp (documents ▸ member)
  have authentic : ∀ d ∈ leaf.2 :: ancestors.map Prod.snd,
      verifyVaidAuthenticityGraded service.issuer.kernelPublicKey (.obj d) = .ok .valid := by
    intro d member
    obtain ⟨e, listed, rfl⟩ := each d member
    exact (document e listed).2.authentic
  have linked : (leaf.2 :: ancestors.map Prod.snd).IsChain (fun child parent => Attenuates parent child) := by
    rw [← documents, List.isChain_map]
    exact List.IsChain.imp_of_mem_imp (fun child parent member _ presented =>
      attenuates_of_parent presented (document child member).1) h.linked
  have rooted : ∀ root ∈ (leaf.2 :: ancestors.map Prod.snd).getLast?, parentOf root = none := by
    intro root last
    rw [← documents, List.getLast?_map, Option.mem_map] at last
    obtain ⟨e, last, rfl⟩ := last
    have named := (document e (List.mem_of_getLast? last)).2.parentVaid
    rw [seedAttributes, h.rooted e last] at named
    rw [parentOf, named]
    rfl
  refine ⟨authentic, ?domain, linked, rooted, Ancestry.nodup_of_linked ?names rooted ?told⟩
  case domain =>
    intro d member
    obtain ⟨e, listed, rfl⟩ := each d member
    exact (document e listed).2.trustDomain
  case names =>
    exact List.IsChain.imp_of_mem_imp (fun _ parent _ member within =>
      parentOf_of_link (of_graded_valid (authentic parent member)).1 within.link) linked
  case told =>
    intro d member d' member' same
    obtain ⟨e, listed, rfl⟩ := each d member
    obtain ⟨e', listed', rfl⟩ := each d' member'
    rw [(h.issued e listed).eq_of_vaidId signing fresh (h.issued e' listed') same]

/-- In every interleaving of calls on one mint that draw distinct ids, a chain of documents that
were delegated under one another verifies under the kernel key, among whatever the mint has
issued: until an ancestor expires it is `attenuated`, and then it is `expired`. -/
theorem issued_line_verdict (service : MintService L R A)
    (signing : SigningKey service.issuer.kernelSeed) (calls : ι → Op)
    (fresh : Function.Injective (fun i => (calls i).env.issue.vaidId)) (schedule : List ι)
    {keys : KernelKeyResolver} (made : SingleKernelKey.new service.issuer.kernelPublicKey = .ok keys) :
    let pool := (mintPool service calls).run schedule
    ∀ leaf ancestors, Line calls pool (leaf :: ancestors) → ancestors.length < maxLineageDepth →
      ∀ documents : List Members, (∀ a ∈ ancestors, a.2 ∈ documents) →
        (∀ d ∈ documents, ∃ i, HasIssued pool i d) →
          ∃ bundle, PresentedBundle.new (documents.map .obj) = .ok bundle ∧
            ∀ now, verifyChainAt keys (.obj leaf.2) bundle .empty now =
              .ok (if ancestors.any (fun a => isExpired a.2 now) then .expired else .attenuated) := by
  intro pool leaf ancestors line short documents presented issued
  have descent := line.descent signing fresh
  have document : ∀ {i d}, HasIssued pool i d →
      service.issuer.IssuedAs (calls i).env.issue (seedAttributes (calls i).request.seed) d := by
    rintro i _ ⟨response, returned, rfl⟩
    exact (returned_document signing returned).2.2.issued
  have authentic : ∀ d ∈ documents,
      verifyVaidAuthenticityGraded service.issuer.kernelPublicKey (.obj d) = .ok .valid := by
    intro d member
    obtain ⟨i, has⟩ := issued d member
    exact (document has).authentic
  have found : ∀ a ∈ ancestors.map Prod.snd, (bundleOf documents).lookup (vaidIdOf a) = some a := by
    intro a member
    obtain ⟨e, listed, rfl⟩ := List.mem_map.mp member
    refine InsertionMap.lookup_ofList_of_unique (presented e listed) (fun d other same => ?_)
    obtain ⟨i, has⟩ := issued d other
    exact has.eq_of_vaidId signing fresh (line.issued e (List.mem_cons_of_mem _ listed)) same
  refine ⟨bundleOf documents, PresentedBundle.new_ok (fun d member =>
    (of_graded_valid (authentic d member)).1), fun now => ?_⟩
  have verdict := descent.verifyChainAt (by rwa [List.length_map]) made found authentic now
  rwa [List.any_map] at verdict

end Chains

section Example

/-- A toy scheme, and the reading of the first two days. -/
@[reducible] def lineRuntime : Runtime :=
  { Runtime.toy with
    dateParse := fun s =>
      if s = js "0000-01-01T00:00:00Z" then some (-62167219200000)
      else if s = js "0000-01-02T00:00:00Z" then some (-62167132800000) else none }

attribute [local instance] lineRuntime toyKeys

def lineService : MintService InMemoryLineageStore InMemoryRevocationList InMemoryAudit :=
  exampleService

theorem lineSigning : SigningKey lineService.issuer.kernelSeed := fun _ => rfl

def lineEnv (d : Fin 16) : MintEnv where
  authz := permitAll
  popNow := -62167219200000
  parentNow := -62167219200000
  issue := ⟨⟨List.replicate 31 0 ++ [d], digits_length d⟩, -62167219200000, []⟩

def lineSeed (parentVaid : Option JsStr) (publicKeyDer : Option Bytes) : VaidSeed :=
  { holderSeed with parentVaid := parentVaid, publicKeyDer := publicKeyDer }

/-- The root is minted by the first call, and the second delegates under `parent`. -/
def lineCalls (parent : Option Members) (root : Bool) : Op :=
  if root then .mintRoot (lineEnv 1) ⟨lineSeed none none, none⟩
  else .mintChild (lineEnv 2) ⟨lineSeed (some (lineEnv 1).issue.vaidId) (some [5]),
    some ⟨js "n", js "0000-01-01T00:00:00Z", [1]⟩⟩ parent

def lineParent : Option Members :=
  returnedVaid (((mintPool lineService (lineCalls none)).run [true, true]).programs true)

def linePool : Pool Bool (MintService InMemoryLineageStore InMemoryRevocationList InMemoryAudit)
    (Outcome MintError MintVaidResponse) :=
  (mintPool lineService (lineCalls lineParent)).run [true, true, false, false]

theorem lineFresh : Function.Injective (fun i => (lineCalls lineParent i).env.issue.vaidId) := by
  intro i j same
  have apart : (lineEnv 1).issue.vaidId ≠ (lineEnv 2).issue.vaidId := by decide +kernel
  cases i <;> cases j
  · rfl
  · exact absurd same.symm apart
  · exact absurd same apart
  · rfl

theorem lineParent_eq : returnedVaid (linePool.programs true) = lineParent := by
  have ended : linePool.programs true =
      ((mintPool lineService (lineCalls lineParent)).run [true, true]).programs true :=
    Pool.run_other ((mintPool lineService (lineCalls lineParent)).run [true, true])
      (by simp : true ∉ [false, false])
  have alone : ((mintPool lineService (lineCalls lineParent)).run [true, true]).programs true =
      ((mintPool lineService (lineCalls none)).run [true, true]).programs true :=
    Pool.run_alone 2 rfl rfl
  rw [ended, alone, lineParent]

theorem issued_line_verdict_child : ∃ root child keys bundle,
    HasIssued linePool true root ∧ HasIssued linePool false child ∧
      SingleKernelKey.new lineService.issuer.kernelPublicKey = .ok keys ∧
      PresentedBundle.new [.obj root] = .ok bundle ∧
      ∀ now, verifyChainAt keys (.obj child) bundle .empty now =
        .ok (if isExpired root now then .expired else .attenuated) := by
  obtain ⟨root, first⟩ := Option.isSome_iff_exists.mp
    (show lineParent.isSome = true by decide +kernel)
  obtain ⟨child, second⟩ := Option.isSome_iff_exists.mp
    (show (returnedVaid (linePool.programs false)).isSome = true by decide +kernel)
  have rootIssued : HasIssued linePool true root := by
    refine of_returnedVaid (Eq.trans ?_ first)
    rw [lineParent_eq]
  have childIssued : HasIssued linePool false child := of_returnedVaid second
  obtain ⟨keys, made⟩ : ∃ keys,
      SingleKernelKey.new lineService.issuer.kernelPublicKey = .ok keys := ⟨_, rfl⟩
  have line : Line (lineCalls lineParent) linePool [(false, child), (true, root)] := by
    refine ⟨?_, ?_, ?_⟩
    · simpa using ⟨childIssued, rootIssued⟩
    · exact List.isChain_pair.mpr first
    · simp [lineCalls, lineSeed, Op.request]
  obtain ⟨bundle, bundled, verdict⟩ := issued_line_verdict lineService lineSigning
    (lineCalls lineParent) lineFresh [true, true, false, false] made (false, child) [(true, root)] line
    (show 1 < maxLineageDepth by decide) [root] (by simp)
    (fun d member => ⟨true, by rw [List.mem_singleton.mp member]; exact rootIssued⟩)
  refine ⟨root, child, keys, bundle, rootIssued, childIssued, made, bundled, fun now => ?_⟩
  simpa using verdict now

end Example

end VaidSuite.TypeScript.MintPool
