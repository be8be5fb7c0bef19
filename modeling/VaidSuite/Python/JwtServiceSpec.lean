import VaidSuite.Python.JwtService
import VaidSuite.Python.McpSpec
import VaidSuite.Python.Totality

/-! For which documents, of whatever members, the token endpoint issues a token. -/
namespace VaidSuite.Python.JwtBridge

open Raising (Returns)

variable [Libraries]

/-- One key signed both ends, in one tenant, and the parent holds what the child does. -/
structure HopHolds (parent child : Dict) : Prop where
  sameKey : ∃ own other, parent.item "kernel_key_thumbprint" = .ok own ∧
    child.item "kernel_key_thumbprint" = .ok other ∧ pyEq own other = true
  tenant : (child.item "trust_domain" >>= fun domain => child.item "tenant_id" >>= fun tenant =>
    tenantAttenuates parent domain tenant) = .ok true
  contains : Mcp.Contains parent child
  expiry : expiryAttenuates parent (child.get "expires_at") = .ok true

variable {keys : KernelKeyResolver} {now : UtcDatetime} {parent child : Dict}

theorem holds_of_verifyHop (held : verifyHop keys .empty now parent child = .ok .attenuated) :
    HopHolds parent child := by
  have contains := Mcp.contains_of_hop held
  obtain ⟨own, hasOwn, held⟩ := Raising.of_bind_eq_ok held
  obtain ⟨other, hasOther, held⟩ := Raising.of_bind_eq_ok held
  obtain ⟨tenantHolds, held⟩ := Raising.of_unless_eq_ok held nofun
  obtain ⟨_, _, held⟩ := Raising.of_bind_eq_ok held
  obtain ⟨_, held⟩ := Raising.of_unless_eq_ok held nofun
  obtain ⟨_, _, held⟩ := Raising.of_bind_eq_ok held
  obtain ⟨_, held⟩ := Raising.of_unless_eq_ok held nofun
  obtain ⟨expiryHolds, held⟩ := Raising.of_unless_eq_ok held nofun
  cases same : pyEq own other with
  | true =>
    rw [same] at tenantHolds
    exact ⟨⟨own, other, hasOwn, hasOther, same⟩, tenantHolds, contains, expiryHolds⟩
  | false =>
    -- Without attestations, a hop between two keys is not authentic.
    rw [same] at held
    obtain ⟨_, _, held⟩ := Raising.of_bind_eq_ok held
    obtain ⟨_, _, held⟩ := Raising.of_bind_eq_ok held
    cases held

theorem HopHolds.verifyHop (h : HopHolds parent child) (keys : KernelKeyResolver) (now : UtcDatetime) :
    verifyHop keys .empty now parent child = .ok .attenuated := by
  obtain ⟨own, other, hasOwn, hasOther, same⟩ := h.sameKey
  obtain ⟨boundary, hasBoundary, scope⟩ := h.contains.scope
  obtain ⟨capabilities, hasCapabilities, caps⟩ := h.contains.caps
  have tenant := h.tenant
  unfold Python.verifyHop
  simp only [hasOwn, hasOther, same, Raising.ok_bind, if_true]
  change (child.item "trust_domain" >>= fun domain => child.item "tenant_id" >>= fun tenant =>
    tenantAttenuates parent domain tenant) >>= _ = _
  rw [tenant]
  simp only [hasBoundary, scope, hasCapabilities, caps, h.expiry, Raising.ok_bind, Bool.not_true,
    Bool.false_eq_true, if_false]
  rfl

theorem verifyHops_iff (keys : KernelKeyResolver) (now : UtcDatetime) (docs : List Dict) :
    verifyHops keys .empty now docs = .ok .attenuated ↔ docs.IsChain HopHolds := by
  induction docs with
  | nil => exact iff_of_true rfl .nil
  | cons parent docs ih =>
    cases docs with
    | nil => exact iff_of_true rfl (.singleton _)
    | cons child docs =>
      rw [List.isChain_cons_cons, ← ih]
      constructor
      · intro held
        obtain ⟨hop, rest⟩ := verifyHops_cons held
        exact ⟨holds_of_verifyHop hop, rest⟩
      · rintro ⟨hop, rest⟩
        rw [verifyHops, hop.verifyHop keys now, Raising.ok_bind]
        exact rest

omit [Libraries] in
theorem new_eq_ok_iff {chain : List Dict} {bundle : PresentedBundle} :
    PresentedBundle.new chain = .ok bundle ↔
      (∀ d ∈ chain, HasShape d) ∧ bundle = InsertionMap.ofList vaidIdOf chain := by
  constructor
  · intro presented
    have shaped := (returns_new chain).mp ⟨bundle, presented⟩
    exact ⟨shaped, Except.ok.inj (presented.symm.trans (new_eq shaped))⟩
  · rintro ⟨shaped, rfl⟩
    exact new_eq shaped

/-- What the verdict on a chain asks of the documents on the lineage and beside it. -/
structure ChainHolds (keys : KernelKeyResolver) (leaf : Dict) (chain : List Dict) (now : UtcDatetime)
    (line : List Dict) : Prop where
  shape : HasShape leaf
  authentic : ∀ d ∈ leaf :: PresentedBundle.documents (InsertionMap.ofList vaidIdOf chain),
    authenticate keys d = .ok true
  lineage : (Mcp.presentation leaf chain).IsLineage maxLineageDepth line
  unlapsed : ∀ d ∈ line, isExpiredAt d now = .ok false
  hops : (leaf :: line).IsChain (fun child parent => HopHolds parent child)

variable {leaf : Dict} {chain line : List Dict} {bundle : PresentedBundle}

theorem chainHolds_of_attenuated (presented : PresentedBundle.new chain = .ok bundle)
    (verdict : verifyChainAt keys leaf bundle .empty now = .ok .attenuated) :
    ∃ line, ChainHolds keys leaf chain now line := by
  obtain ⟨ids, docs, h⟩ := of_verifyChainAt verdict
  obtain ⟨line, lineage, rfl⟩ := Mcp.lineage_of_attenuated presented h
  obtain ⟨_, rfl⟩ := new_eq_ok_iff.mp presented
  have unlapsed := h.unlapsed
  rw [List.reverse_cons, List.dropLast_concat] at unlapsed
  exact ⟨line, (returns_requireVaidShape leaf "leaf").mp ⟨_, h.shape⟩, h.authentic, lineage,
    fun d member => unlapsed d (List.mem_reverse.mpr member),
    List.isChain_reverse.mp ((verifyHops_iff keys now _).mp h.hops)⟩

theorem ChainHolds.resolved (h : ChainHolds keys leaf chain now line)
    (presented : PresentedBundle.new chain = .ok bundle) :
    assembleLineage leaf bundle.resolveParent = .ok (some ((leaf :: line).reverse.map vaidIdOf)) ∧
      ((leaf :: line).reverse.map vaidIdOf).mapM (chainDoc leaf bundle) =
        some (leaf :: line).reverse := by
  obtain ⟨_, shaped⟩ := (returns_requireVaidShape leaf "leaf").mpr h.shape
  have presents := Mcp.presents leaf presented
  have named := ((Mcp.presentation leaf chain).names_eq_some_iff (by decide) _).mpr
    ⟨line, h.lineage, rfl⟩
  constructor
  · exact (presents.assembleLineage shaped).trans (congrArg Except.ok named)
  · have chained : ((leaf :: line).reverse.map vaidIdOf).mapM (chainDoc leaf bundle) =
        (((leaf :: line).reverse.map vaidIdOf).mapM (Mcp.presentation leaf chain).docOf).map
          (List.map id) := presents.chainDocs _
    have docs : ((leaf :: line).reverse.map vaidIdOf).mapM (Mcp.presentation leaf chain).docOf =
        some (leaf :: line).reverse := (Mcp.presentation leaf chain).mapM_docOf (h.lineage.docOf _)
    rw [chained, docs, Option.map_some, List.map_id]

theorem ChainHolds.attenuated (h : ChainHolds keys leaf chain now line)
    (presented : PresentedBundle.new chain = .ok bundle) :
    verifyChainAt keys leaf bundle .empty now = .ok .attenuated := by
  obtain ⟨_, shaped⟩ := (returns_requireVaidShape leaf "leaf").mpr h.shape
  obtain ⟨assembled, resolved⟩ := h.resolved presented
  obtain ⟨_, rfl⟩ := new_eq_ok_iff.mp presented
  obtain ⟨leafAuthentic, allAuthentic⟩ := List.forall_mem_cons.mp h.authentic
  have unlapsed : (leaf :: line).reverse.dropLast.anyM (fun d => isExpiredAt d now) = .ok false := by
    rw [Raising.anyM_eq_false_iff, List.reverse_cons, List.dropLast_concat]
    exact fun d member => h.unlapsed d (List.mem_reverse.mp member)
  unfold verifyChainAt
  simp only [shaped, leafAuthentic, Raising.allM_eq_true_iff.mpr allAuthentic, assembled, resolved,
    unlapsed, Raising.ok_bind, Bool.not_true, Bool.false_eq_true, if_false]
  exact (verifyHops_iff keys now _).mpr (List.isChain_reverse.mpr h.hops)

omit [Libraries] in
theorem item_vaidId_of_hasShape {d : Dict} (shape : HasShape d) :
    d.item "vaid_id" = .ok (.str (vaidIdOf d)) := by
  obtain ⟨c, s, named⟩ := shape.vaidId
  rw [item_eq (hasMember_of_get (by rw [named]; exact nofun)), vaidIdOf, named]
  rfl

omit [Libraries] in
theorem copyEntries_of_evaluable {entries : List PyValue} (evaluable : boundaryIsEvaluable entries = true) :
    entries.mapM copyEntry = .ok entries := by
  have copies : ∀ entry ∈ entries, copyEntry entry = .ok (id entry) := by
    intro entry member
    have reads := List.all_eq_true.mp evaluable entry member
    cases entry with
    | obj members => rfl
    | _ => cases reads
  simpa using Raising.mapM_ok copies

def leafClaim (leaf : Dict) (caps : List PyValue) (hash : PyStr) : Dict :=
  [(py "vaid_id", leaf.get "vaid_id"), (py "trust_domain", leaf.get "trust_domain"),
    (py "scope_boundary", leaf.get "scope_boundary"), (py "capability_set", .arr caps),
    (py "chain_sha256", .str hash)]

theorem buildVaidClaim_of_ready (ready : Ready leaf) (docs : List Dict) :
    buildVaidClaim leaf docs = leaf.item "capability_set" >>= fun held => iter held >>= fun caps =>
      chainSha256 docs >>= fun hash => .ok (leafClaim leaf caps hash) := by
  obtain ⟨entries, listed⟩ := boundary_arr ready.boundary
  have evaluable : boundaryIsEvaluable entries = true := by
    have boundary := ready.boundary
    rwa [hasEvaluableBoundary, listed] at boundary
  unfold buildVaidClaim leafClaim
  rw [ready.item_vaidId, ready.item_trustDomain, ready.item_boundary, listed]
  simp only [iter, copyEntries_of_evaluable evaluable, Raising.ok_bind]
  rfl

/-- The claims for a lineage, given as its ids, root first. -/
def lineClaims (issuance : Issuance) (audience : PyStr) (iat exp : Int) (ids : List PyStr)
    (claim : Dict) : Dict :=
  [(py "iss", .str issuance.issuer), (py "aud", .str audience), (py "iat", .num (.int iat)),
    (py "exp", .num (.int exp)), (py "jti", .str issuance.jti), (py "sub", .str (ids.headD [])),
    (py "vaid", .obj claim)] ++ ((actOf ids.tail).map (fun node => (py "act", Json.obj node))).toList

/-- What a token takes beside the verified documents: capabilities that can be listed, a chain
that can be hashed, a whole second of life, and a signer that signs the claims. -/
def Signs (issuance : Issuance) (audience : PyStr) (now : UtcDatetime) (leaf : Dict)
    (line : List Dict) : Prop :=
  ∃ held caps hash expiresAt token,
    leaf.item "capability_set" = .ok held ∧ iter held = .ok caps ∧
    chainSha256 (leaf :: line).reverse = .ok hash ∧
    parseRfc3339Z (leaf.get "expires_at") = .ok expiresAt ∧
    let iat := now.wholeTimestamp
    let exp := min (iat + issuance.defaultTtlSeconds) expiresAt.wholeTimestamp
    iat < exp ∧ issuance.sign (lineClaims issuance audience iat exp
      ((leaf :: line).reverse.map vaidIdOf) (leafClaim leaf caps hash)) = .ok token

theorem issueToken_iff_signs (ready : Ready leaf) (expires : HasMember leaf "expires_at")
    (shaped : ∀ d ∈ leaf :: line, HasShape d) (issuance : Issuance) (audience : PyStr)
    (now : UtcDatetime) :
    (∃ response, issueToken issuance audience now leaf (leaf :: line).reverse =
      .ok (.issued response)) ↔ Signs issuance audience now leaf line := by
  obtain ⟨root, rest, whole⟩ := List.exists_cons_of_ne_nil
    (show (leaf :: line).reverse ≠ [] by simp)
  have named : ∀ d ∈ root :: rest, d.item "vaid_id" = .ok (.str (vaidIdOf d)) := fun d member =>
    item_vaidId_of_hasShape (shaped d (List.mem_reverse.mp (whole ▸ member)))
  unfold issueToken Signs
  rw [whole, buildSubAndAct_of_named named, buildVaidClaim_of_ready ready, item_eq expires]
  simp only [Raising.ok_bind, bind_assoc]
  constructor
  · rintro ⟨response, issued⟩
    obtain ⟨held, hasCaps, issued⟩ := Raising.of_bind_eq_ok issued
    obtain ⟨caps, iterates, issued⟩ := Raising.of_bind_eq_ok issued
    obtain ⟨hash, hashed, issued⟩ := Raising.of_bind_eq_ok issued
    obtain ⟨expiresAt, parsed, issued⟩ := Raising.of_bind_eq_ok issued
    split at issued
    · cases issued
    · rename_i alive
      obtain ⟨token, signed, _⟩ := Raising.of_bind_eq_ok issued
      exact ⟨held, caps, hash, expiresAt, token, hasCaps, iterates, hashed, parsed, not_le.mp alive,
        signed⟩
  · rintro ⟨held, caps, hash, expiresAt, token, hasCaps, iterates, hashed, parsed, alive, signed⟩
    simp only [hasCaps, iterates, hashed, parsed, Raising.ok_bind, if_neg (not_le.mpr alive)]
    exact ⟨_, congrArg (· >>= _) signed⟩

/-- What the documents of a request must be for the bridge to vouch for them. -/
structure Redeemable (keys : TrustedIssuerMap) (revocation : List PyStr → RevocationStatus)
    (now : UtcDatetime) (leaf : Dict) (chain line : List Dict) : Prop where
  shaped : ∀ d ∈ chain, HasShape d
  bound : ∀ d ∈ leaf :: chain, isMisbound keys d = false
  evaluable : ∀ d ∈ leaf :: chain, hasEvaluableBoundary d = true
  unexpired : isExpiredAt leaf now = .ok false
  verified : ChainHolds keys.resolveKey leaf chain now line
  notRevoked : revocation ((leaf :: line).reverse.map vaidIdOf) = .notRevoked

theorem trusted_iff {keys : TrustedIssuerMap} :
    (authenticate keys.resolveKey leaf = .ok true ∧ isMisbound keys leaf = false) ↔
      ∃ issuer, (leaf.get "kernel_key_thumbprint").asStr.bind (fun t => keys.lookup t) = some issuer ∧
        pyEq (.str issuer.trustDomain) (leaf.get "trust_domain") = true ∧
        verifyVaidAuthenticityGraded issuer.publicKey leaf = .ok .valid := by
  have graded : ∀ key, verifyVaidAuthenticity key leaf = .ok true ↔
      verifyVaidAuthenticityGraded key leaf = .ok .valid := by
    intro key
    unfold verifyVaidAuthenticity
    cases verifyVaidAuthenticityGraded key leaf with
    | error e => exact iff_of_false nofun nofun
    | ok verdict => cases verdict <;> simp [pure, Except.pure]
  unfold authenticate isMisbound
  cases leaf.get "kernel_key_thumbprint" with
  | str t =>
    simp only [TrustedIssuerMap.resolveKey, Json.asStr, Option.bind_some, Raising.ok_bind,
      TrustedIssuerMap.trustDomainFor]
    cases keys.lookup t with
    | none => simp [pure, Except.pure]
    | some issuer => simp [graded, and_comm]
  | _ => simp [TrustedIssuerMap.resolveKey, pure, Except.pure, Json.asStr]

section Exchange

variable {keys : TrustedIssuerMap} {revocation : List PyStr → RevocationStatus} {now : UtcDatetime}

theorem Redeemable.checkBearer (h : Redeemable keys revocation now leaf chain line) {R : Type}
    (report : Fault → R) (goOn : PresentedBundle → Raises R) :
    checkBearer report goOn keys now leaf chain = goOn (InsertionMap.ofList vaidIdOf chain) := by
  obtain ⟨leafBound, chainBound⟩ := List.forall_mem_cons.mp h.bound
  obtain ⟨issuer, trusted, sameDomain, valid⟩ := trusted_iff.mp
    ⟨h.verified.authentic leaf List.mem_cons_self, leafBound⟩
  have presented := new_eq_ok_iff.mpr ⟨h.shaped, rfl⟩
  have readable : (leaf :: chain).find? (fun doc => !hasEvaluableBoundary doc) = none :=
    List.find?_eq_none.mpr (fun d member => by simp [h.evaluable d member])
  have elsewhere : chain.find? (isMisbound keys) = none :=
    List.find?_eq_none.mpr (fun d member => by simp [chainBound d member])
  unfold Python.checkBearer checkDocuments
  simp only [trusted, sameDomain, valid, h.unexpired, readable, elsewhere, presented,
    h.verified.attenuated presented, Raising.ok_bind, Bool.not_true, Bool.false_eq_true, if_false,
    ne_eq, not_true_eq_false]

theorem Redeemable.ready (h : Redeemable keys revocation now leaf chain line) :
    Ready leaf ∧ HasMember leaf "expires_at" ∧ ∀ d ∈ leaf :: line, HasShape d := by
  refine ⟨⟨vetted_of_authentic (h.verified.authentic leaf List.mem_cons_self),
    h.evaluable leaf List.mem_cons_self, (returns_isExpiredAt leaf now).mp ⟨_, h.unexpired⟩⟩, ?_,
    List.forall_mem_cons.mpr ⟨h.verified.shape, fun d member => ?_⟩⟩
  · refine hasMember_of_get (fun absent => ?_)
    have unexpired := h.unexpired
    rw [isExpiredAt, absent] at unexpired
    cases unexpired
  · exact h.shaped d (InsertionMap.of_lookup_ofList (h.verified.lineage.presented d member)).2

theorem redeemable_of_cleared {bundle : PresentedBundle} (cleared : Cleared keys now leaf chain bundle)
    {issuance : Issuance} {audience : PyStr} {response : Issued}
    (issued : issueStanding revocation issuance audience now leaf bundle = .ok (.issued response)) :
    ∃ line, Redeemable keys revocation now leaf chain line := by
  obtain ⟨line, verified⟩ := chainHolds_of_attenuated cleared.presented cleared.attenuated
  refine ⟨line, (new_eq_ok_iff.mp cleared.presented).1, cleared.bound, cleared.evaluable,
    cleared.unexpired, verified, ?_⟩
  rw [issueStanding, (verified.resolved cleared.presented).1, Raising.ok_bind] at issued
  dsimp only at issued
  split at issued
  · cases issued
  · cases issued
  · assumption

/-- The bridge issues a token exactly for documents that it can vouch for and claims that can be
signed. -/
theorem exchangePresented_issues_iff (issuance : Issuance) (audience : PyStr) :
    (∃ response, exchangePresented keys revocation issuance audience now leaf chain =
      .ok (.issued response)) ↔
      ∃ line, Redeemable keys revocation now leaf chain line ∧ Signs issuance audience now leaf line := by
  have standing : ∀ {line bundle}, PresentedBundle.new chain = .ok bundle →
      Redeemable keys revocation now leaf chain line →
      issueStanding revocation issuance audience now leaf bundle =
        issueToken issuance audience now leaf (leaf :: line).reverse := by
    intro line bundle presented h
    obtain ⟨assembled, resolved⟩ := h.verified.resolved presented
    simp only [issueStanding, assembled, resolved, h.notRevoked, Raising.ok_bind]
  constructor
  · rintro ⟨response, issued⟩
    rw [exchangePresented_eq] at issued
    rcases of_checkBearer issued with ⟨fault, reported⟩ | ⟨bundle, cleared, issued⟩
    · exact absurd reported (report_ne keys leaf fault response)
    · obtain ⟨line, redeemable⟩ := redeemable_of_cleared cleared issued
      obtain ⟨ready, expires, shaped⟩ := redeemable.ready
      rw [standing cleared.presented redeemable] at issued
      exact ⟨line, redeemable,
        (issueToken_iff_signs ready expires shaped issuance audience now).mp ⟨response, issued⟩⟩
  · rintro ⟨line, redeemable, signs⟩
    obtain ⟨ready, expires, shaped⟩ := redeemable.ready
    obtain ⟨response, issued⟩ :=
      (issueToken_iff_signs ready expires shaped issuance audience now).mpr signs
    refine ⟨response, ?_⟩
    rw [exchangePresented_eq, redeemable.checkBearer,
      standing (new_eq_ok_iff.mpr ⟨redeemable.shaped, rfl⟩) redeemable, issued]

theorem exchange_issues_iff {audience tokenType : Option PyStr} (issuance : Issuance) :
    (∃ response, exchange ⟨some leaf, chain, audience, tokenType⟩ keys revocation issuance none now =
      .ok (.issued response)) ↔
      ∃ named line, audience = some named ∧ named ≠ [] ∧ (∀ t ∈ tokenType, t = issuedTokenTypeJwt) ∧
        Redeemable keys revocation now leaf chain line ∧ Signs issuance named now leaf line := by
  unfold exchange
  cases audience with
  | none => exact iff_of_false (by rintro ⟨_, ⟨⟩⟩) (by rintro ⟨_, _, ⟨⟩, _⟩)
  | some named =>
    cases named with
    | nil =>
      refine iff_of_false (by rintro ⟨_, ⟨⟩⟩) ?_
      rintro ⟨_, _, ⟨⟩, nonempty, _⟩
      exact nonempty rfl
    | cons c s =>
      by_cases accepted : ∀ t ∈ tokenType, t = issuedTokenTypeJwt
      · have acceptable : tokenType.any (fun t => t ≠ issuedTokenTypeJwt) = false := by
          cases tokenType with
          | none => rfl
          | some t => simp [accepted t rfl]
        simp only [acceptable, Bool.false_eq_true, if_false, Option.getD_none, Option.some.injEq,
          exchangePresented_issues_iff]
        constructor
        · rintro ⟨line, redeemable, signs⟩
          exact ⟨c :: s, line, rfl, List.cons_ne_nil c s, accepted, redeemable, signs⟩
        · rintro ⟨_, line, rfl, _, _, redeemable, signs⟩
          exact ⟨line, redeemable, signs⟩
      · have other : tokenType.any (fun t => t ≠ issuedTokenTypeJwt) = true := by
          cases tokenType with
          | none => exact absurd (fun t member => nomatch member) accepted
          | some t => simpa using accepted
        simp only [other, if_true]
        refine iff_of_false (by rintro ⟨_, ⟨⟩⟩) ?_
        rintro ⟨_, _, _, _, acceptable, _⟩
        exact accepted acceptable

end Exchange

/-- A request that names its audience, of documents the bridge can vouch for and sign for. -/
def Redeems (config : BridgeConfig) (form : Form) (clock : UtcDatetime)
    (subject : Option Dict × List Dict) : Prop :=
  form.get "grant_type" = some grantTypeTokenExchange ∧
    form.get "subject_token_type" = some subjectTokenTypeVaidChainV1 ∧
    ∃ leaf chain audience line, subject = (some leaf, chain) ∧
      form.get "audience" = some audience ∧ audience ≠ [] ∧
      (∀ t ∈ form.get "requested_token_type", t = issuedTokenTypeJwt) ∧
      Redeemable config.keys config.revocation clock leaf chain line ∧
      Signs config.issuance audience clock leaf line

theorem tokenExchange_issues_iff (config : BridgeConfig) (form : Form) (clock : UtcDatetime) :
    (∃ response, tokenExchange config form clock = .ok (.issued response)) ↔
      ∃ raw, form.get "subject_token" = some raw ∧ Redeems config form clock (parseSubjectToken raw) := by
  constructor
  · rintro ⟨response, issued⟩
    unfold tokenExchange at issued
    split at issued
    · cases issued
    · rename_i grant
      dsimp only at issued
      split at issued
      · cases issued
      · rename_i type
        split at issued
        · cases issued
        · rename_i raw presented
          split at issued
          · cases issued
          · rename_i leaf chain parsed
            obtain ⟨result, exchanged, answered⟩ := Raising.of_bind_eq_ok issued
            cases result with
            | denied => cases answered
            | issued response =>
              obtain ⟨audience, line, requested⟩ :=
                (exchange_issues_iff config.issuance).mp ⟨response, exchanged⟩
              exact ⟨raw, presented, not_not.mp grant, not_not.mp type, leaf, chain, audience, line,
                parsed, requested⟩
  · rintro ⟨raw, presented, grant, type, leaf, chain, audience, line, parsed, requested⟩
    obtain ⟨response, exchanged⟩ :=
      (exchange_issues_iff config.issuance).mpr ⟨audience, line, requested⟩
    refine ⟨response, ?_⟩
    simp only [tokenExchange, grant, type, presented, parsed, exchanged, ne_eq, not_true_eq_false,
      if_false, Raising.ok_bind]
    rfl

end VaidSuite.Python.JwtBridge
