import VaidSuite.MintChain

/-! The list of documents a presenter supplies against the bundle the verifier
reads: of several documents with one id only the last is in the bundle. -/
namespace VaidSuite

open Keyed (IsLast)

section Verifier

variable [Crypto] [Chrono]

theorem verifyChainAt_congr (keys : KernelKeyResolver) (leaf : Vaid)
    (attestations : AttestationBundle) (now : Instant) {bundle bundle' : PresentedBundle}
    (same : ∀ id, bundle.get id = bundle'.get id) :
    verifyChainAt keys leaf bundle attestations now =
      verifyChainAt keys leaf bundle' attestations now := by
  have members : ∀ doc, doc ∈ bundle.items ↔ doc ∈ bundle'.items := by
    intro doc
    rw [Keyed.mem_items_iff, Keyed.mem_items_iff, same]
  have everyDoc : bundle.items.all (authenticate keys) = bundle'.items.all (authenticate keys) := by
    rw [Bool.eq_iff_iff, List.all_eq_true, List.all_eq_true]
    exact forall_congr' (fun doc => imp_congr_left (members doc))
  have parents : bundle.resolveParent = bundle'.resolveParent := by
    funext id
    unfold PresentedBundle.resolveParent
    rw [same]
  have docs : chainDoc leaf bundle = chainDoc leaf bundle' := by
    funext id
    unfold chainDoc
    rw [same]
  unfold verifyChainAt
  rw [everyDoc, parents, docs]

theorem verifyChainAt_of_inauthentic {keys : KernelKeyResolver} {bundle : PresentedBundle}
    {doc : Vaid} (presented : doc ∈ bundle.items) (forged : authenticate keys doc = false)
    (leaf : Vaid) (attestations : AttestationBundle) (now : Instant) :
    verifyChainAt keys leaf bundle attestations now = some .inauthentic := by
  have refused : bundle.items.all (authenticate keys) = false :=
    List.all_eq_false.mpr ⟨doc, presented, by simp [forged]⟩
  unfold verifyChainAt
  rw [refused]
  split <;> rfl

omit [Crypto] [Chrono] in
theorem mem_new_iff (documents : List Vaid) (doc : Vaid) :
    doc ∈ (PresentedBundle.new documents).items ↔ IsLast Vaid.vaidId documents doc := by
  rw [Keyed.mem_items_iff, PresentedBundle.new, Keyed.get_ofList_eq_some_iff]
  exact and_iff_left rfl

theorem verifyChainAt_of_lasts (keys : KernelKeyResolver) (leaf : Vaid)
    (attestations : AttestationBundle) (now : Instant) {documents documents' : List Vaid}
    (same : ∀ doc, IsLast Vaid.vaidId documents doc ↔ IsLast Vaid.vaidId documents' doc) :
    verifyChainAt keys leaf (PresentedBundle.new documents) attestations now =
      verifyChainAt keys leaf (PresentedBundle.new documents') attestations now := by
  refine verifyChainAt_congr keys leaf attestations now (fun id => Option.ext (fun doc => ?_))
  rw [PresentedBundle.new, PresentedBundle.new, Keyed.get_ofList_eq_some_iff,
    Keyed.get_ofList_eq_some_iff, same]

/-- Every presented document that no later one of its id replaces is authenticated,
and the order of the list decides nothing else than which ones those are. -/
theorem presented_documents_count (keys : KernelKeyResolver) (leaf : Vaid)
    (attestations : AttestationBundle) (now : Instant) (documents : List Vaid) :
    (∀ doc, IsLast Vaid.vaidId documents doc → authenticate keys doc = false →
      verifyChainAt keys leaf (PresentedBundle.new documents) attestations now =
        some .inauthentic) ∧
    (∀ documents' : List Vaid, documents.Perm documents' →
      (∀ doc, IsLast Vaid.vaidId documents doc ↔ IsLast Vaid.vaidId documents' doc) →
      verifyChainAt keys leaf (PresentedBundle.new documents) attestations now =
        verifyChainAt keys leaf (PresentedBundle.new documents') attestations now) ∧
    ((∀ a ∈ documents, ∀ b ∈ documents, a.vaidId = b.vaidId → a = b) →
      (∀ doc ∈ documents, authenticate keys doc = false →
        verifyChainAt keys leaf (PresentedBundle.new documents) attestations now =
          some .inauthentic) ∧
      ∀ documents' : List Vaid, documents.Perm documents' →
        verifyChainAt keys leaf (PresentedBundle.new documents) attestations now =
          verifyChainAt keys leaf (PresentedBundle.new documents') attestations now) := by
  have counts : ∀ doc, IsLast Vaid.vaidId documents doc → authenticate keys doc = false →
      verifyChainAt keys leaf (PresentedBundle.new documents) attestations now =
        some .inauthentic := by
    intro doc last forged
    exact verifyChainAt_of_inauthentic ((mem_new_iff _ _).mpr last) forged leaf attestations now
  refine ⟨counts, fun _ _ same => verifyChainAt_of_lasts keys leaf attestations now same,
    fun single => ⟨fun doc member => counts doc (Keyed.isLast_of_mem single member), ?_⟩⟩
  intro documents' reordered
  have single' : ∀ a ∈ documents', ∀ b ∈ documents', a.vaidId = b.vaidId → a = b :=
    fun a ha b hb => single a (reordered.mem_iff.mpr ha) b (reordered.mem_iff.mpr hb)
  refine verifyChainAt_of_lasts keys leaf attestations now (fun doc => ?_)
  constructor
  · intro last
    exact Keyed.isLast_of_mem single' (reordered.mem_iff.mp last.mem)
  · intro last
    exact Keyed.isLast_of_mem single (reordered.mem_iff.mpr last.mem)

end Verifier

section Example

open MintChain

local instance presentedCrypto : Crypto := .standIn

local instance presentedChrono : Chrono :=
  .table [(1893456000, "2030-01-01T00:00:00Z"), (1893459600, "2030-01-01T01:00:00Z")]

def exampleKeys : KernelKeyResolver := SingleKernelKey.new exampleService.issuer.kernelPublicKey

def genuineParent : Vaid := exampleParent exampleDomain
def forgedParent : Vaid := genuineParent.withKernelSignature []

theorem forgedParent_refused : authenticate exampleKeys forgedParent = false := by
  decide +kernel

/-- In front of the genuine document of its id the forged one is not seen, behind
it the same documents are refused. -/
theorem forged_document_ignored :
    authenticate exampleKeys forgedParent = false ∧
      verifyChainAt exampleKeys exampleChild (PresentedBundle.new [forgedParent, genuineParent])
        AttestationBundle.empty exampleNow = some .attenuated ∧
      verifyChainAt exampleKeys exampleChild (PresentedBundle.new [genuineParent, forgedParent])
        AttestationBundle.empty exampleNow = some .inauthentic := by
  refine ⟨forgedParent_refused, ?_, ?_⟩
  · have replaced : ∀ id, (PresentedBundle.new [forgedParent, genuineParent]).get id =
        (Keyed.insert PresentedBundle.empty genuineParent).get id := fun _ => rfl
    obtain ⟨_, returned⟩ := example_returned exampleDomain
    obtain ⟨_, verified⟩ := verifiedChain_of_attenuated (exampleParent_attenuated exampleDomain)
    cases verified.presents.unique (exampleParent_presents exampleDomain)
    obtain ⟨minted, _⟩ := minted_of_mintChild Crypto.standIn_signaturesVerify returned
    rw [verifyChainAt_congr _ _ _ _ replaced]
    refine (verifyChainAt_child_iff verified minted ?_ (by decide) exampleNow).mpr ⟨?_, rfl⟩
    · intro doc member
      rw [List.mem_singleton.mp member]
      decide
    · intro doc member
      rw [List.mem_singleton.mp member]
      exact minted.alive
  · exact verifyChainAt_of_inauthentic List.mem_cons_self forgedParent_refused _ _ _

end Example

end VaidSuite
