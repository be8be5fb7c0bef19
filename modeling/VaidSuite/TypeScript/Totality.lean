import VaidSuite.TypeScript.Anchor
import VaidSuite.TypeScript.VerifyCoreSpec

/-! When the verification core of the skill throws, whatever values the leaf and the chain
elements carry, and what it always reports about revocation. -/
namespace VaidSuite.TypeScript

open Raising (Returns Sound)

section Verifier

variable [Runtime]

/-- The value has a string: a template literal can show it. -/
def HasText : JsValue → Prop
  | .str _ => True
  | v => (Runtime.toText v).isSome = true

theorem returns_template (v : JsValue) : Returns (template v) ↔ HasText v := by
  have shown : ∀ text : Option JsStr, (∀ s, v ≠ .str s) → Runtime.toText v = text →
      (Returns (template v) ↔ text.isSome = true) := by
    rintro (_ | s) other shows
    · have thrown : template v = .error .typeError := by
        cases v <;> first | exact absurd rfl (other _) | simp only [template, shows]
      simp [thrown]
    · have returned : template v = .ok s := by
        cases v <;> first | exact absurd rfl (other _) | simp only [template, shows]
      simp [returned]
  cases v with
  | str s => exact iff_of_true (Raising.returns_ok s) trivial
  | _ => exact shown _ nofun rfl

omit [Runtime] in
theorem returns_requireVaidShape (d : Members) (context : String) :
    Returns (requireVaidShape (.obj d) context) ↔ hasShape d = true :=
  ⟨fun ⟨_, returned⟩ => (of_requireVaidShape returned).1,
    fun shape => ⟨d, requireVaidShape_ok shape context⟩⟩

theorem returns_verifyLineageHash {d : Members} (shape : hasShape d = true) :
    Returns (verifyLineageHash d) := by
  unfold verifyLineageHash
  cases d.get "agent_id" with
  | str agentId =>
    refine Raising.returns_bind_pure.mpr ?_
    unfold hasShape at shape
    rcases vaidId : d.get "vaid_id" with _ | _ | _ | _ | (_ | ⟨c, s⟩) | _ | _ <;>
      simp only [vaidId, Bool.false_eq_true] at shape
    cases parent : d.get "parent_vaid" with
    | null | undefined | str s => exact ⟨_, rfl⟩
    | _ => simp only [parent, Bool.false_eq_true] at shape
  | _ => exact Raising.returns_ok _

theorem returns_authenticity {key : Bytes} {thumbprint : JsStr}
    (derived : kernelKeyThumbprint key = .ok thumbprint) (d : Members) :
    Returns (verifyVaidAuthenticity key (.obj d)) ↔ hasShape d = true := by
  rw [verifyVaidAuthenticity, Raising.returns_bind_pure, ← returns_requireVaidShape d "vaid",
    verifyVaidAuthenticityGraded, Raising.returns_bind_iff]
  refine exists_congr (fun shaped => and_iff_left_of_imp (fun returned => ?_))
  obtain ⟨shape, rfl⟩ := of_requireVaidShape returned
  rw [Raising.returns_unless_iff (Raising.returns_pure _)]
  intro _
  rw [Raising.returns_unless_iff (Raising.returns_pure _)]
  intro _
  rw [derived, Raising.ok_bind, Raising.returns_unless_iff (Raising.returns_pure _)]
  intro _
  rw [Raising.returns_check_iff (Raising.returns_pure _)]
  refine ⟨returns_verifyLineageHash shape, fun _ => ?_⟩
  split <;> exact Raising.returns_pure _

/-- Is `container.includes(item)` answered? -/
def CanInclude (container item : JsValue) : Prop :=
  match container with
  | .arr _ => True
  | .str _ => HasText item
  | _ => False

theorem returns_includes (container item : JsValue) :
    Returns (includes container item) ↔ CanInclude container item := by
  cases container with
  | arr items => exact iff_of_true (Raising.returns_ok _) trivial
  | str s =>
    rw [includes, CanInclude, ← returns_template]
    cases template item <;> simp [Except.map]
  | _ => exact iff_of_false (Raising.not_returns_error _) id

/-- The boundaries of both sides are arrays, the child's only where the parent's can be read. -/
def BoundariesComparable (parent child : Members) : Prop :=
  ∃ entries, parent.get "scope_boundary" = .arr entries ∧
    (entries.all entryIsEvaluable = true → ∃ childEntries, child.get "scope_boundary" = .arr childEntries)

/-- The child's capabilities are an array, and each that is looked up among the parent's can be. -/
def CapsComparable (parent child : Members) : Prop :=
  ∃ caps, child.get "capability_set" = .arr caps ∧
    Sound (caps.map (fun c => (CanInclude (parent.get "capability_set") c,
      includes (parent.get "capability_set") c = .ok true)))

omit [Runtime] in
theorem boundaryIsEvaluable_items (items : List JsValue) :
    boundaryIsEvaluable (.arr items) = .ok (items.all entryIsEvaluable) := rfl

omit [Runtime] in
theorem returns_arrayItems (v : JsValue) : Returns (arrayItems v) ↔ ∃ items, v = .arr items := by
  cases v with
  | arr items => exact iff_of_true (Raising.returns_ok _) ⟨items, rfl⟩
  | _ => exact iff_of_false (Raising.not_returns_error _) (by rintro ⟨_, ⟨⟩⟩)

omit [Runtime] in
theorem returns_boundaryIsEvaluable (v : JsValue) :
    Returns (boundaryIsEvaluable v) ↔ ∃ items, v = .arr items := by
  rw [← returns_arrayItems, boundaryIsEvaluable]
  cases arrayItems v <;> simp [Except.map]

omit [Runtime] in
theorem returns_scopeAttenuates (parent child : Members) :
    Returns (scopeAttenuates parent (child.get "scope_boundary")) ↔ BoundariesComparable parent child := by
  rw [scopeAttenuates, scopeAttenuatesWithin, Raising.returns_bind_pure, scopeAttenuationReason,
    Raising.returns_check_iff (Raising.returns_pure _), returns_boundaryIsEvaluable]
  constructor
  · rintro ⟨⟨entries, listed⟩, readable⟩
    refine ⟨entries, listed, fun evaluable => ?_⟩
    rw [listed, boundaryIsEvaluable_items, evaluable] at readable
    exact (returns_boundaryIsEvaluable _).mp
      ((Raising.returns_check_iff (Raising.returns_pure _)).mp (readable rfl)).1
  · rintro ⟨entries, listed, readable⟩
    refine ⟨⟨entries, listed⟩, fun evaluable => ?_⟩
    rw [listed, boundaryIsEvaluable_items, Except.ok.injEq] at evaluable
    obtain ⟨childEntries, childListed⟩ := readable evaluable
    rw [listed, childListed, Raising.returns_check_iff (Raising.returns_pure _)]
    exact ⟨Raising.returns_ok _, fun _ => ⟨_, rfl⟩⟩

theorem returns_capsAttenuate (parent child : Members) :
    Returns (capsAttenuate parent (child.get "capability_set")) ↔ CapsComparable parent child := by
  rw [capsAttenuate, capsAttenuateWithin, Raising.returns_bind_iff, CapsComparable]
  have answers (caps : List JsValue) : Returns (caps.allM (includes (parent.get "capability_set"))) ↔
      Sound (caps.map (fun c => (CanInclude (parent.get "capability_set") c,
        includes (parent.get "capability_set") c = .ok true))) := by
    rw [Raising.returns_allM_iff]
    exact Raising.sound_map_congr (fun c _ => returns_includes _ c)
  refine exists_congr (fun caps => and_congr ?_ (answers caps))
  cases child.get "capability_set" with
  | arr items => simp [arrayItems]
  | _ => simp [arrayItems]

def hopChecks (parent child : Members) : List (Prop × Prop) :=
  [(True, ((parent.get "kernel_key_thumbprint").strictEq (child.get "kernel_key_thumbprint") &&
      !tenantAttenuates parent (child.get "trust_domain") (child.get "tenant_id")) = false),
    (BoundariesComparable parent child, scopeAttenuates parent (child.get "scope_boundary") = .ok true),
    (CapsComparable parent child, True)]

omit [Runtime] in
theorem vaidId_of_hasShape {d : Members} (shape : hasShape d = true) : ∃ s, d.get "vaid_id" = .str s := by
  unfold hasShape at shape
  cases vaidId : d.get "vaid_id" with
  | str s => exact ⟨s, rfl⟩
  | _ => simp only [vaidId, Bool.false_eq_true] at shape

theorem returns_verifyHop (keys : KernelKeyResolver) (now : Int) {parent child : Members}
    (parentShape : hasShape parent = true) (childShape : hasShape child = true) :
    Returns (verifyHop keys .empty now parent child) ↔ Sound (hopChecks parent child) := by
  obtain ⟨parentId, parentNamed⟩ := vaidId_of_hasShape parentShape
  obtain ⟨childId, childNamed⟩ := vaidId_of_hasShape childShape
  simp only [hopChecks, Raising.sound_cons, ← returns_scopeAttenuates, ← returns_capsAttenuate, true_and]
  unfold verifyHop
  dsimp only
  cases (parent.get "kernel_key_thumbprint").strictEq (child.get "kernel_key_thumbprint") &&
    !tenantAttenuates parent (child.get "trust_domain") (child.get "tenant_id") with
  | true => simp
  | false =>
    rw [if_neg Bool.false_ne_true, forall_prop_of_true rfl,
      Raising.returns_check_iff (Raising.returns_pure _)]
    refine and_congr_right (fun _ => forall_congr' (fun _ => ?_))
    rw [Raising.returns_check_iff (Raising.returns_pure _)]
    refine and_congr_right (fun _ => ?_)
    refine iff_of_true (fun _ => ?_) (fun _ => Raising.sound_nil)
    split
    · exact Raising.returns_pure _
    · split
      · exact Raising.returns_pure _
      · -- no consent is ever presented
        rw [parentNamed, childNamed]
        exact ⟨_, rfl⟩

def hopRuns (keys : KernelKeyResolver) (now : Int) : List Members → List (Prop × Prop)
  | parent :: child :: rest =>
    (Sound (hopChecks parent child), verifyHop keys .empty now parent child = .ok .attenuated) ::
      hopRuns keys now (child :: rest)
  | _ => []

theorem returns_verifyHops (keys : KernelKeyResolver) (now : Int) {docs : List Members}
    (shapes : ∀ d ∈ docs, hasShape d = true) :
    Returns (verifyHops keys .empty now docs) ↔ Sound (hopRuns keys now docs) := by
  induction docs with
  | nil => exact iff_of_true (Raising.returns_ok _) Raising.sound_nil
  | cons parent docs ih =>
    cases docs with
    | nil => exact iff_of_true (Raising.returns_ok _) Raising.sound_nil
    | cons child docs =>
      rw [List.forall_mem_cons] at shapes
      rw [hopRuns, Raising.sound_cons, ← ih shapes.2,
        ← returns_verifyHop keys now shapes.1 (shapes.2 child List.mem_cons_self), verifyHops]
      cases hop : verifyHop keys .empty now parent child with
      | error e => simp
      | ok verdict => cases verdict <;> simp

omit [Runtime] in
theorem hasShape_of_documents {documents : List Members} (shapes : ∀ d ∈ documents, hasShape d = true)
    {d : Members} (member : d ∈ (bundleOf documents).documents) : hasShape d = true := by
  obtain ⟨e, filed, rfl⟩ := List.mem_map.mp member
  exact shapes _ (InsertionMap.mem_ofList filed).2

omit [Runtime] in
theorem hasShape_of_lineageOf {leaf : Members} {documents line : List Members} (shape : hasShape leaf = true)
    (shapes : ∀ d ∈ documents, hasShape d = true) (assembled : lineageOf leaf documents = some line) :
    ∀ d ∈ line, hasShape d = true := by
  obtain ⟨ancestors, isLine, rfl⟩ := (Presentation.lineage_eq_some_iff _ (by decide)).mp assembled
  intro d member
  rcases List.mem_cons.mp (List.mem_reverse.mp member) with rfl | member
  · exact shape
  · exact shapes d (InsertionMap.of_lookup_ofList (isLine.presented d member)).2

/-- Every key that is found has a thumbprint. -/
def Derives (keys : KernelKeyResolver) : Prop :=
  ∀ v key, keys v = some key → ∃ thumbprint, kernelKeyThumbprint key = .ok thumbprint

theorem returns_authenticate {keys : KernelKeyResolver} (derives : Derives keys) {d : Members}
    (shape : hasShape d = true) : Returns (authenticate keys d) := by
  unfold authenticate
  cases found : keys (d.get "kernel_key_thumbprint") with
  | none => exact Raising.returns_ok _
  | some key =>
    obtain ⟨thumbprint, derived⟩ := derives _ _ found
    exact (returns_authenticity derived d).mpr shape

/-- The checks of a chain: authenticity, the lapse of an ancestor, then the hops. -/
def chainRuns (keys : KernelKeyResolver) (now : Int) (leaf : Members) (documents : List Members) :
    List (Prop × Prop) :=
  [(hasShape leaf = true, ∀ d ∈ leaf :: (bundleOf documents).documents, authenticate keys d = .ok true),
    (∀ line, lineageOf leaf documents = some line → (∀ d ∈ line.dropLast, isExpired d now = false) →
      Sound (hopRuns keys now line), True)]

theorem returns_verifyChainAt {keys : KernelKeyResolver} (derives : Derives keys) (now : Int)
    (leaf : Members) {documents : List Members} (shapes : ∀ d ∈ documents, hasShape d = true) :
    Returns (verifyChainAt keys (.obj leaf) (bundleOf documents) .empty now) ↔
      Sound (chainRuns keys now leaf documents) := by
  rw [chainRuns, Raising.sound_cons, Raising.sound_cons]
  by_cases shape : hasShape leaf = true
  · have bundled : Returns ((bundleOf documents).documents.allM (authenticate keys)) := by
      rw [Raising.returns_allM_iff]
      refine Raising.sound_of_forall (List.forall_mem_map.mpr (fun d filed => ?_))
      exact returns_authenticate derives (hasShape_of_documents shapes filed)
    rw [verifyChainAt, requireVaidShape_ok shape, Raising.ok_bind,
      Raising.returns_check_iff (Raising.returns_pure _), Raising.returns_check_iff (Raising.returns_pure _),
      List.forall_mem_cons, Raising.allM_eq_true_iff, assembleLineage_ok shape, Raising.ok_bind, and_imp,
      Presentation.names_eq _ (by decide)]
    refine and_congr (iff_of_true (returns_authenticate derives shape) shape)
      (forall_congr' (fun _ => (and_iff_right bundled).trans (forall_congr' (fun _ => ?_))))
    rw [true_imp_iff, and_iff_left Raising.sound_nil]
    cases assembled : (presentation leaf documents).lineage maxLineageDepth with
    | none =>
      refine iff_of_true (Raising.returns_pure _) (fun line other => ?_)
      rw [lineageOf, assembled] at other
      cases other
    | some line =>
      have resolved : (line.map vaidIdOf).mapM (chainDoc leaf (bundleOf documents)) = some line := by
        obtain ⟨ancestors, isLine, rfl⟩ := (Presentation.lineage_eq_some_iff _ (by decide)).mp assembled
        exact Presentation.mapM_docOf _ (isLine.docOf _)
      have only : ∀ other, lineageOf leaf documents = some other ↔ line = other :=
        fun other => by rw [lineageOf, assembled, Option.some.injEq]
      simp only [Option.map_some, only, forall_eq',
        ← returns_verifyHops keys now (hasShape_of_lineageOf shape shapes assembled)]
      rw [show (presentation leaf documents).name = vaidIdOf from rfl, resolved]
      dsimp only
      have inDate : (∀ d ∈ line.dropLast, isExpired d now = false) ↔
          line.dropLast.any (fun d => isExpired d now) = false := by simp
      rw [inDate]
      cases line.dropLast.any (fun d => isExpired d now) <;> simp
  · refine iff_of_false (fun returned => shape ?_) (fun h => shape h.1)
    obtain ⟨_, shaped, _⟩ := Raising.returns_bind_iff.mp returned
    exact (of_requireVaidShape shaped).1

theorem trustDomain_of_authentic {key : Bytes} {d : Members}
    (authentic : verifyVaidAuthenticity key (.obj d) = .ok true) : ∃ s, d.get "trust_domain" = .str s := by
  obtain ⟨verdict, graded, authentic⟩ := Raising.of_bind_eq_ok authentic
  have valid : verdict = .valid := beq_iff_eq.mp (Except.ok.inj authentic)
  subst valid
  obtain ⟨_, returned, graded⟩ := Raising.of_bind_eq_ok graded
  obtain ⟨_, rfl⟩ := of_requireVaidShape returned
  split at graded
  · cases graded
  · split at graded
    · cases graded
    · rename_i domain
      cases claimed : d.get "trust_domain" with
      | str s => exact ⟨s, rfl⟩
      | _ => exact absurd (by rw [claimed]; rfl) domain

variable {parsed : Parsed} {now : Int} {key : Bytes}

theorem trustDomain_of_vouched {line : List Members} (vouched : Vouched key parsed now line) :
    ∃ s, parsed.vaid.get "trust_domain" = .str s := by
  cases vouched with
  | alone _ authentic => exact trustDomain_of_authentic authentic
  | chain _ _ _ attenuated =>
    have authentic := attenuated.authentic parsed.vaid List.mem_cons_self
    unfold authenticate at authentic
    split at authentic
    · cases authentic
    · exact trustDomain_of_authentic authentic

def resolverOf (thumbprint : JsStr) (key : Bytes) : KernelKeyResolver :=
  fun v => v.asStr.bind (fun s => [(thumbprint, key)].lookup s)

theorem kernelKeyMap_single {thumbprint : JsStr} (derived : kernelKeyThumbprint key = .ok thumbprint) :
    KernelKeyMap.new [key] = .ok (resolverOf thumbprint key) := by
  simp only [KernelKeyMap.new, List.mapM_cons, List.mapM_nil, derived, Raising.ok_bind]
  rfl

theorem derives_resolverOf {thumbprint : JsStr} (derived : kernelKeyThumbprint key = .ok thumbprint) :
    Derives (resolverOf thumbprint key) := by
  intro v found resolved
  obtain ⟨s, _, filed⟩ := Option.bind_eq_some_iff.mp resolved
  cases List.mem_singleton.mp (InsertionMap.mem_of_lookup filed)
  exact ⟨thumbprint, derived⟩

/-- The second step can be taken: the leaf, or every document of a chain, has its shape, and so has
what the hops compare. -/
def Authorizable (key : Bytes) (thumbprint : JsStr) (parsed : Parsed) (now : Int) : Prop :=
  if parsed.chain.isEmpty then hasShape parsed.vaid = true
  else (∀ d ∈ parsed.chain, hasShape d = true) ∧
    Sound (chainRuns (resolverOf thumbprint key) now parsed.vaid parsed.chain)

theorem returns_authorityFindings {thumbprint : JsStr} (derived : kernelKeyThumbprint key = .ok thumbprint) :
    Returns (authorityFindings key parsed now) ↔ Authorizable key thumbprint parsed now := by
  unfold authorityFindings Authorizable
  cases parsed.chain.isEmpty with
  | true =>
    rw [if_pos rfl, if_pos rfl, ← returns_authenticity derived parsed.vaid]
    cases verifyVaidAuthenticity key (.obj parsed.vaid) with
    | error e => simp
    | ok authentic => cases authentic <;> simp
  | false =>
    rw [if_neg Bool.false_ne_true, if_neg Bool.false_ne_true, Raising.returns_bind_pure, chainResult,
      kernelKeyMap_single derived, Raising.ok_bind, Raising.returns_bind_iff]
    constructor
    · rintro ⟨bundle, presented, returned⟩
      obtain ⟨rfl, shapes⟩ := PresentedBundle.of_new presented
      exact ⟨shapes, (returns_verifyChainAt (derives_resolverOf derived) now parsed.vaid shapes).mp returned⟩
    · rintro ⟨shapes, sound⟩
      exact ⟨_, PresentedBundle.new_ok shapes,
        (returns_verifyChainAt (derives_resolverOf derived) now parsed.vaid shapes).mpr sound⟩

/-- The members of the key's JWK that are shown have a string. -/
def ShowsOrigin (jwk : Members) : Prop :=
  (jwk.get "$local").strictEq (.bool true) = false → (jwk.get "key_id").truthy = true →
    HasText (jwk.get "key_id") ∧ ((jwk.get "deployment").truthy = true → HasText (jwk.get "deployment"))

theorem returns_provenance (jwk : Members) : Returns (provenance jwk) ↔ ShowsOrigin jwk := by
  unfold provenance ShowsOrigin
  dsimp only
  rw [← returns_template, ← returns_template]
  cases (jwk.get "$local").strictEq (.bool true) with
  | true => simp
  | false =>
    cases (jwk.get "key_id").truthy with
    | false => simp
    | true =>
      cases template (jwk.get "key_id") with
      | error e => simp
      | ok keyId =>
        cases (jwk.get "deployment").truthy with
        | false => simp
        | true => cases template (jwk.get "deployment") <;> simp

theorem returns_expiryFinding (vaid : Members) (now : Int) :
    Returns (expiryFinding vaid now) ↔ HasText (vaid.get "expires_at") := by
  rw [← returns_template, expiryFinding]
  cases template (vaid.get "expires_at") with
  | error e => simp
  | ok s => cases isExpired vaid now <;> simp

theorem returns_issuerFinding {vaid : Members} (claimed : ∃ s, vaid.get "trust_domain" = .str s) :
    Returns (issuerFinding vaid) := by
  obtain ⟨s, claimed⟩ := claimed
  rw [issuerFinding, claimed]
  cases isSpecialUseTrustDomain (.str s) <;> exact ⟨_, rfl⟩

/-- Under every key that the anchor finds for the leaf, each step has what it needs. -/
def Checkable (anchor : Anchor) (now : Int) (parsed : Parsed) : Prop :=
  ∀ thumbprint entry, parsed.vaid.get "kernel_key_thumbprint" = .str thumbprint →
    anchor.lookup thumbprint = some entry →
      ShowsOrigin entry.jwk ∧ Authorizable entry.key thumbprint parsed now ∧
        ((∃ line, Vouched entry.key parsed now line) → HasText (parsed.vaid.get "expires_at"))

theorem returns_verifyParsed {anchorDoc : JsValue} {anchor : Anchor} (loads : loadAnchor anchorDoc = .ok anchor) :
    Returns (verifyParsed parsed anchor now) ↔ Checkable anchor now parsed := by
  unfold verifyParsed Checkable
  dsimp only
  cases claimed : parsed.vaid.get "kernel_key_thumbprint" with
  | str thumbprint =>
    simp only [JsValue.str.injEq, JsValue.asStr, Option.bind_some]
    cases found : anchor.lookup thumbprint with
    | none =>
      refine iff_of_true (Raising.returns_pure _) ?_
      rintro _ entry rfl listed
      rw [found] at listed
      cases listed
    | some entry =>
      have derived := (of_loadAnchor loads found).2
      dsimp only
      rw [Raising.returns_bind_iff]
      constructor
      · rintro ⟨origin, shown, returned⟩ _ _ rfl listed
        cases found.symm.trans listed
        obtain ⟨⟨authority, goOn⟩, made, returned⟩ := Raising.returns_bind_iff.mp returned
        refine ⟨(returns_provenance _).mp ⟨_, shown⟩, (returns_authorityFindings derived).mp ⟨_, made⟩, ?_⟩
        rintro ⟨line, vouched⟩
        rw [vouched.authorityFindings now, vouched.unlapsed] at made
        cases made
        obtain ⟨expiry, shownExpiry, _⟩ := Raising.returns_bind_iff.mp returned
        exact (returns_expiryFinding _ now).mp ⟨_, shownExpiry⟩
      · intro checkable
        obtain ⟨shows, authorizable, text⟩ := checkable thumbprint entry rfl found
        obtain ⟨origin, shown⟩ := (returns_provenance _).mpr shows
        obtain ⟨⟨authority, goOn⟩, made⟩ := (returns_authorityFindings derived).mpr authorizable
        refine ⟨origin, shown, Raising.returns_bind_iff.mpr ⟨_, made, ?_⟩⟩
        cases goOn with
        | false => exact Raising.returns_pure _
        | true =>
          obtain ⟨line, vouched⟩ := of_authorityFindings made
          obtain ⟨expiry, shownExpiry⟩ := (returns_expiryFinding _ now).mpr (text ⟨line, vouched⟩)
          obtain ⟨issuer, shownIssuer⟩ := returns_issuerFinding (trustDomain_of_vouched vouched)
          exact Raising.returns_bind_iff.mpr ⟨_, shownExpiry,
            Raising.returns_bind_iff.mpr ⟨_, shownIssuer, Raising.returns_pure _⟩⟩
  | _ => simp [JsValue.asStr]

omit [Runtime] in
theorem revocation_assemble {findings : List Finding} (parsed : Parsed)
    (others : findings.filter (fun f => f.id == "revocation") = [] ∨
      findings.filter (fun f => f.id == "revocation") = [revocationFinding]) :
    (assemble findings parsed).findings.filter (fun f => f.id == "revocation") = [revocationFinding] := by
  have reported : (assemble findings parsed).findings =
      if findings.any (fun f => f.id == "revocation") then findings else findings ++ [revocationFinding] := rfl
  rw [reported]
  rcases others with none_ | one
  · rw [if_neg (by simpa using none_), List.filter_append, none_]
    rfl
  · rw [if_pos, one]
    exact List.any_eq_true.mpr ⟨revocationFinding, List.mem_of_mem_filter (one ▸ List.mem_singleton_self _), rfl⟩

theorem issuerFinding_id {vaid : Members} {finding : Finding} (returned : issuerFinding vaid = .ok finding) :
    finding.id = "issuer" := by
  obtain ⟨text, _, returned⟩ := Raising.of_bind_eq_ok returned
  cases special : isSpecialUseTrustDomain (vaid.get "trust_domain") with
  | false | true =>
    simp only [special] at returned
    cases returned
    rfl

omit [Runtime] in
theorem authorityOf_others (parsed : Parsed) : ∀ f ∈ authorityOf parsed, (f.id == "revocation") = false := by
  unfold authorityOf
  split
  · split
    · simp [authenticityFinding, unpresentedParentFinding]
    · simp [authenticityFinding]
  · simp [chainFinding]

theorem revocation_verifyParsed {anchor : Anchor} {result : VerifyResult}
    (returned : verifyParsed parsed anchor now = .ok result) :
    result.findings.filter (fun f => f.id == "revocation") = [revocationFinding] := by
  unfold verifyParsed at returned
  dsimp only at returned
  split at returned
  · cases returned
    exact revocation_assemble parsed (.inl rfl)
  · obtain ⟨origin, _, returned⟩ := Raising.of_bind_eq_ok returned
    obtain ⟨⟨authority, goOn⟩, made, returned⟩ := Raising.of_bind_eq_ok returned
    cases goOn with
    | false =>
      obtain ⟨refusal, rfl, _, other⟩ := authorityFindings_refusal made
      cases returned
      refine revocation_assemble parsed (.inl ?_)
      rcases other with id | id <;> simp [id]
    | true =>
      obtain ⟨expiry, shownExpiry, returned⟩ := Raising.of_bind_eq_ok returned
      obtain ⟨issuer, shownIssuer, returned⟩ := Raising.of_bind_eq_ok returned
      obtain ⟨line, vouched⟩ := of_authorityFindings made
      rw [vouched.authorityFindings now, vouched.unlapsed] at made
      cases made
      cases returned
      obtain ⟨_, again, named, _⟩ := expiryFinding_later shownExpiry now
      cases shownExpiry.symm.trans again
      have others : (authorityOf parsed).filter (fun f => f.id == "revocation") = [] := by
        simpa using authorityOf_others parsed
      refine revocation_assemble parsed (.inr ?_)
      rw [List.cons_append, List.filter_cons_of_neg (by simp), List.filter_append, others]
      simp [named, issuerFinding_id shownIssuer, revocationFinding]

/-- A verdict is returned, with revocation reported once and as not checked where there is an envelope. -/
def GivesVerdict (input : JsStr) (anchor : Anchor) (now : Int) : Prop :=
  ∃ result, verifyEnvelope input anchor now = .ok result ∧
    ∀ parsed, parseEnvelope input = .ok parsed →
      ∃ finding, result.findings.filter (fun f => f.id == "revocation") = [finding] ∧
        finding.state = .notChecked

/-- Under a loaded anchor the verifier gives a verdict exactly where the steps that it takes have
what they need. -/
theorem givesVerdict_iff {anchorDoc : JsValue} {anchor : Anchor} (loads : loadAnchor anchorDoc = .ok anchor)
    (input : JsStr) (now : Int) :
    GivesVerdict input anchor now ↔ ∀ parsed, parseEnvelope input = .ok parsed → Checkable anchor now parsed := by
  unfold GivesVerdict verifyEnvelope
  cases parse : parseEnvelope input with
  | error message => simp
  | ok parsed =>
    simp only [Except.ok.injEq, forall_eq', ← returns_verifyParsed loads]
    constructor
    · rintro ⟨result, returned, _⟩
      exact ⟨result, returned⟩
    · rintro ⟨result, returned⟩
      exact ⟨result, returned, revocationFinding, revocation_verifyParsed returned, rfl⟩

end Verifier

section Example

local instance anchoredRuntime : Runtime := Runtime.toy

def exampleThumbprint : JsStr := thumbprintUriPrefix ++ js "qw"

/-- The anchor file of one key. -/
def exampleAnchorDoc : JsValue :=
  .obj [(js "keys", .obj [(exampleThumbprint, .obj [(js "kty", .str (js "OKP")), (js "crv", .str (js "Ed25519")),
    (js "x", .str (js "AAAAAAAAAAAAAAAAAAAAAAAAAAAAAAAAAAAAAAAAAAA"))])])]

/-- Under the loaded anchor, a signed root is given a verdict. -/
theorem givesVerdict_futureRoot : ∃ anchor, loadAnchor exampleAnchorDoc = .ok anchor ∧
    GivesVerdict futureRoot anchor 1893400000000 := by
  have anchored : (loadAnchor exampleAnchorDoc).toOption.any (fun anchor =>
      anchor.all (fun e => !(Members.get e.2.jwk "key_id").truthy)) = true := by decide +kernel
  have read : (parseEnvelope futureRoot).toOption.all (fun parsed => parsed.chain.isEmpty &&
      hasShape parsed.vaid && (parsed.vaid.get "expires_at").asStr.isSome) = true := by decide +kernel
  cases loads : loadAnchor exampleAnchorDoc with
  | error e =>
    rw [loads] at anchored
    cases anchored
  | ok anchor =>
    refine ⟨anchor, rfl, (givesVerdict_iff loads futureRoot 1893400000000).mpr ?_⟩
    rintro parsed parse thumbprint entry _ found
    rw [parse] at read
    simp only [Except.toOption, Option.all_some, Bool.and_eq_true] at read
    obtain ⟨⟨alone, shape⟩, expiresAt⟩ := read
    rw [loads] at anchored
    have unnamed := List.all_eq_true.mp anchored _ (InsertionMap.mem_of_lookup found)
    refine ⟨fun _ keyId => ?_, ?_, fun _ => ?_⟩
    · rw [keyId] at unnamed
      cases unnamed
    · rwa [Authorizable, if_pos alone]
    · cases member : parsed.vaid.get "expires_at" with
      | str s => trivial
      | _ =>
        rw [member] at expiresAt
        cases expiresAt

def namelessInput : JsStr := objectText [("kernel_key_thumbprint", quoted exampleThumbprint)]

theorem nameless_thrown : ∃ anchor, loadAnchor exampleAnchorDoc = .ok anchor ∧
    ¬ GivesVerdict namelessInput anchor 0 := by
  have thrown : (loadAnchor exampleAnchorDoc).toOption.map (fun anchor =>
      (verifyEnvelope namelessInput anchor 0).isOk) = some false := by decide +kernel
  cases loads : loadAnchor exampleAnchorDoc with
  | error e =>
    rw [loads] at thrown
    cases thrown
  | ok anchor =>
    refine ⟨anchor, rfl, ?_⟩
    rintro ⟨result, returned, _⟩
    rw [loads, Except.toOption, Option.map_some, returned] at thrown
    cases thrown

end Example

end VaidSuite.TypeScript
