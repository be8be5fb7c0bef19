import VaidSuite.Python.JwtBridge
import VaidSuite.Python.Procedure

/-! What a token of the JWT bridge asserts: the chain that was verified, for no longer than
the leaf lives, but for a last fraction of a second. -/
namespace VaidSuite.Python.JwtBridge

open Guards (firstRefusal)

/-- One more actor around the ones before it. -/
def nest (node : Dict) (vaidId : PyStr) : Dict := [(py "sub", .str vaidId), (py "act", .obj node)]

/-- The actors below the root, the root's child first. -/
def actOf : List PyStr → Option Dict
  | [] => none
  | first :: hops => some (hops.foldl nest [(py "sub", .str first)])

/-- Reading an actor claim from the outermost level inwards gives these subjects. -/
inductive ReadsActors : Dict → List PyStr → Prop where
  | last {node : Dict} {vaidId : PyStr} : node.get "sub" = .str vaidId →
      node.lookup (py "act") = none → ReadsActors node [vaidId]
  | hop {node inner : Dict} {vaidId : PyStr} {vaidIds : List PyStr} : node.get "sub" = .str vaidId →
      node.lookup (py "act") = some (.obj inner) → ReadsActors inner vaidIds →
      ReadsActors node (vaidId :: vaidIds)

theorem ReadsActors.unique {node : Dict} {xs ys : List PyStr} (hx : ReadsActors node xs)
    (hy : ReadsActors node ys) : xs = ys := by
  induction hx generalizing ys with
  | last sub innermost =>
    cases hy with
    | last sub' _ =>
      rw [sub] at sub'
      cases sub'
      rfl
    | hop _ act _ => simp [innermost] at act
  | hop sub act _ ih =>
    cases hy with
    | last _ innermost => simp [innermost] at act
    | hop sub' act' rest =>
      rw [sub] at sub'
      rw [act] at act'
      cases sub'
      cases act'
      rw [ih rest]

theorem readsActors_foldl {node : Dict} {inner : List PyStr} (reads : ReadsActors node inner)
    (hops : List PyStr) : ReadsActors (hops.foldl nest node) (hops.reverse ++ inner) := by
  induction hops generalizing node inner with
  | nil => exact reads
  | cons vaidId hops ih =>
    have nested : ReadsActors (nest node vaidId) (vaidId :: inner) := .hop rfl rfl reads
    simpa using ih nested

theorem readsActors_actOf {vaidIds : List PyStr} {node : Dict} (built : actOf vaidIds = some node) :
    ReadsActors node vaidIds.reverse := by
  cases vaidIds with
  | nil => cases built
  | cons first hops =>
    cases built
    have innermost : ReadsActors [(py "sub", .str first)] [first] := .last rfl rfl
    simpa using readsActors_foldl innermost hops

theorem buildSubAndAct_of_named {root : Dict} {rest : List Dict}
    (named : ∀ d ∈ root :: rest, d.item "vaid_id" = .ok (.str (vaidIdOf d))) :
    buildSubAndAct (root :: rest) = .ok (.str (vaidIdOf root), actOf (rest.map vaidIdOf)) := by
  obtain ⟨rootNamed, restNamed⟩ := List.forall_mem_cons.mp named
  cases rest with
  | nil =>
    simp only [buildSubAndAct, rootNamed, Raising.ok_bind]
    rfl
  | cons first hops =>
    obtain ⟨firstNamed, hopsNamed⟩ := List.forall_mem_cons.mp restNamed
    have nested : (hops.map id).foldlM
        (fun node hop => do return [(py "sub", ← hop.item "vaid_id"), (py "act", .obj node)])
        [(py "sub", .str (vaidIdOf first))] =
          .ok (hops.foldl (fun node d => nest node (vaidIdOf d)) [(py "sub", .str (vaidIdOf first))]) :=
      Raising.foldlM_map_ok (fun node d member => by
        rw [id_eq, hopsNamed d member]
        rfl) _
    rw [List.map_id] at nested
    simp only [buildSubAndAct, rootNamed, firstNamed, Raising.ok_bind, nested]
    rw [List.map_cons, actOf, List.foldl_map]
    rfl

section Verifier

variable [Libraries]

theorem item_vaidId (d : Presented) : d.dict.item "vaid_id" = .ok (.str d.vaidId) := by
  rw [(d.required (show ("vaid_id", isUuid) ∈ requiredMembers by simp [requiredMembers])).1,
    d.get_vaidId]

theorem buildSubAndAct_ok (root : Presented) (rest : List Presented) :
    buildSubAndAct ((root :: rest).map Presented.dict) =
      .ok (.str root.vaidId, actOf (rest.map Presented.vaidId)) := by
  rw [List.map_cons, buildSubAndAct_of_named (fun d member => ?_), List.map_map]
  · rfl
  · obtain ⟨e, _, rfl⟩ := List.mem_map.mp (List.map_cons ▸ member)
    exact item_vaidId e

theorem copyEntries_ok (d : Presented) : d.scopeBoundary.mapM copyEntry = .ok d.scopeBoundary := by
  have typed := (d.required (show ("scope_boundary", isWellFormedScopeBoundary) ∈ requiredMembers by
    simp [requiredMembers])).2
  rw [d.get_scopeBoundary] at typed
  have copies : ∀ entry ∈ d.scopeBoundary, copyEntry entry = .ok (id entry) := by
    intro entry member
    have wellFormed := List.all_eq_true.mp typed entry member
    cases entry with
    | obj members => rfl
    | _ => cases wellFormed
  simpa using Raising.mapM_ok copies

/-- The leaf's claim, with the hash of its chain. -/
def vaidClaim (leaf : Presented) (hash : PyStr) : Dict :=
  [(py "vaid_id", .str leaf.vaidId), (py "trust_domain", .str leaf.trustDomain),
    (py "scope_boundary", .arr leaf.scopeBoundary),
    (py "capability_set", .arr (leaf.capabilitySet.map .str)), (py "chain_sha256", .str hash)]

theorem buildVaidClaim_eq (leaf : Presented) (chainDocs : List Dict) :
    buildVaidClaim leaf.dict chainDocs = chainSha256 chainDocs >>= fun hash =>
      .ok (vaidClaim leaf hash) := by
  have domain : leaf.dict.item "trust_domain" = .ok (.str leaf.trustDomain) :=
    leaf.item_str (by simp [requiredMembers])
  unfold buildVaidClaim
  simp only [item_vaidId, domain, leaf.item_scopeBoundary, leaf.item_capabilitySet, iter,
    copyEntries_ok, Raising.ok_bind]
  rfl

def claimsOf (issuance : Issuance) (audience : PyStr) (iat exp : Int) (leaf root : Presented)
    (rest : List Presented) (hash : PyStr) : Dict :=
  [(py "iss", .str issuance.issuer), (py "aud", .str audience), (py "iat", .num (.int iat)),
    (py "exp", .num (.int exp)), (py "jti", .str issuance.jti), (py "sub", .str root.vaidId),
    (py "vaid", .obj (vaidClaim leaf hash))] ++
      ((actOf (rest.map Presented.vaidId)).map (fun node => (py "act", Json.obj node))).toList

theorem issueToken_eq (issuance : Issuance) (audience : PyStr) (now : UtcDatetime)
    (leaf root : Presented) (rest : List Presented) :
    issueToken issuance audience now leaf.dict ((root :: rest).map Presented.dict) =
      chainSha256 ((root :: rest).map Presented.dict) >>= fun hash =>
      parseRfc3339Z (leaf.dict.get "expires_at") >>= fun expiresAt =>
        let iat := now.wholeTimestamp
        let exp := min (iat + issuance.defaultTtlSeconds) expiresAt.wholeTimestamp
        if exp ≤ iat then .ok (.denied .leafExpired
          (py "leaf has no remaining life to bound a non-empty-lived JWT to"))
        else issuance.sign (claimsOf issuance audience iat exp leaf root rest hash) >>= fun token =>
          .ok (.issued ⟨token, issuedTokenTypeJwt, py "N_A", exp - iat⟩) := by
  have expiry : leaf.dict.item "expires_at" = .ok (leaf.dict.get "expires_at") :=
    (leaf.required (show ("expires_at", isStr) ∈ requiredMembers by simp [requiredMembers])).1
  unfold issueToken
  rw [buildSubAndAct_ok, Raising.ok_bind]
  simp only [buildVaidClaim_eq, expiry, Raising.ok_bind, bind_assoc]
  rfl

/-- How the bridge reports what stops it. -/
def report (keys : TrustedIssuerMap) (leaf : Dict) : Fault → ExchangeResult
  | .unknownKey => .denied .issuerMismatch (py "no trusted kernel key for thumbprint " ++
      Libraries.repr (leaf.get "kernel_key_thumbprint"))
  | .leafMisbound boundDomain =>
    .denied .issuerMismatch (trustedOnlyForReason (py "leaf") leaf (.str boundDomain))
  | .leafAuthenticity verdict => .denied (authenticityToReason verdict)
      (py ("leaf authenticity check failed: " ++ verdict.code))
  | .leafExpired => .denied .leafExpired (py "leaf VAID has passed its own expires_at")
  | .unknownScopeKind doc => .denied .unknownScopeKind
      (py "document " ++ Libraries.repr (doc.get "vaid_id") ++
        py (" carries a scope_boundary entry " ++
          "of a kind this bridge does not recognise: no token is issued, " ++
          "because an unrecognised kind can only narrow the authority " ++
          "granted and the issued claim would assert a boundary that was " ++
          "never evaluated"))
  | .misbound doc => .denied .issuerMismatch (trustedOnlyForReason
      (py "document " ++ Libraries.repr (doc.get "vaid_id")) doc
      (((doc.get "kernel_key_thumbprint").asStr.bind keys.trustDomainFor).elim .null .str))
  | .chain verdict => .denied (chainToReason verdict)
      (py "chain verification did not attenuate: " ++ chainVerdictValue verdict)

theorem exchangePresented_eq (keys : TrustedIssuerMap) (revocation : List PyStr → RevocationStatus)
    (issuance : Issuance) (audience : PyStr) (now : UtcDatetime) (leaf : Dict) (chain : List Dict) :
    exchangePresented keys revocation issuance audience now leaf chain =
      checkBearer (report keys leaf) (issueStanding revocation issuance audience now leaf) keys now
        leaf chain := rfl

theorem report_ne (keys : TrustedIssuerMap) (leaf : Dict) (fault : Fault) (response : Issued) :
    ExchangeResult.issued response ≠ report keys leaf fault := by
  cases fault <;> exact nofun

theorem of_exchange {request : ExchangeRequest} {keys : TrustedIssuerMap}
    {revocation : List PyStr → RevocationStatus} {issuance : Issuance} {now : Option UtcDatetime}
    {clock : UtcDatetime} {response : Issued}
    (issued : exchange request keys revocation issuance now clock = .ok (.issued response)) :
    ∃ leaf audience bundle, request.leaf = some leaf ∧
      Cleared keys (now.getD clock) leaf request.chain bundle ∧
      issueStanding revocation issuance audience (now.getD clock) leaf bundle =
        .ok (.issued response) := by
  unfold exchange at issued
  split at issued
  · cases issued
  · rename_i leaf presented
    split at issued
    · cases issued
    · cases issued
    · rename_i audience _ _
      split at issued
      · cases issued
      · rw [exchangePresented_eq] at issued
        rcases of_checkBearer issued with ⟨fault, reported⟩ | ⟨bundle, cleared, issued⟩
        · exact absurd reported (report_ne keys leaf fault response)
        · exact ⟨leaf, audience, bundle, presented, cleared, issued⟩

structure Verified (keys : TrustedIssuerMap) (revocation : List PyStr → RevocationStatus)
    (leaf : Presented) (chain : List Presented) (now : UtcDatetime) (ancestors : List Presented) :
    Prop where
  lineage : (presentation leaf chain).IsLineage maxLineageDepth ancestors
  attenuated : verifyChainAt keys.resolveKey leaf.dict (bundleOf chain) .empty now = .ok .attenuated
  unexpired : isExpiredAt leaf.dict now = .ok false
  evaluable : ∀ d ∈ leaf :: chain, hasEvaluableBoundary d.dict = true
  assembled : assembleLineage leaf.dict (bundleOf chain).resolveParent =
    .ok (some ((leaf :: ancestors).reverse.map Presented.vaidId))
  notRevoked : revocation ((leaf :: ancestors).reverse.map Presented.vaidId) = .notRevoked

/-- The token outlives neither the lifetime that is given nor any document of the lineage. -/
def Bounded (claims : Dict) (ttl : Int) (leaf : Presented) (ancestors : List Presented) : Prop :=
  ∃ iat exp : Int, claims.get "iat" = .num (.int iat) ∧ claims.get "exp" = .num (.int exp) ∧
    iat < exp ∧ exp - iat ≤ ttl ∧
    ∀ d ∈ leaf :: ancestors, ∃ expiresAt, d.expiresAt = some expiresAt ∧
      exp * 1000000 ≤ expiresAt.epochMicros

/-- The claims name the lineage, and hold what the leaf does. -/
structure Describes (claims : Dict) (leaf : Presented) (ancestors : List Presented) : Prop where
  sub : ∀ root ∈ (leaf :: ancestors).getLast?, claims.get "sub" = .str root.vaidId
  noActor : claims.lookup (py "act") = none ↔ ancestors = []
  actors : ∀ act, claims.lookup (py "act") = some act → ∃ node, act = .obj node ∧
    ReadsActors node ((leaf :: ancestors).dropLast.map Presented.vaidId)
  vaid : ∃ vaid : Dict, claims.get "vaid" = .obj vaid ∧
    vaid.get "scope_boundary" = leaf.dict.get "scope_boundary" ∧
    vaid.get "capability_set" = leaf.dict.get "capability_set" ∧
    ∃ hash, chainSha256 ((leaf :: ancestors).reverse.map Presented.dict) = .ok hash ∧
      vaid.get "chain_sha256" = .str hash

theorem Describes.determines {claims claims' : Dict} {leaf leaf' : Presented}
    {ancestors ancestors' : List Presented} (h : Describes claims leaf ancestors)
    (h' : Describes claims' leaf' ancestors') (sub : claims.get "sub" = claims'.get "sub")
    (act : claims.lookup (py "act") = claims'.lookup (py "act")) :
    (leaf :: ancestors).map Presented.vaidId = (leaf' :: ancestors').map Presented.vaidId := by
  have parts : ∀ docs : List Presented, docs ≠ [] → ∃ root, docs.getLast? = some root ∧
      docs.map Presented.vaidId = docs.dropLast.map Presented.vaidId ++ [root.vaidId] := by
    intro docs nonempty
    refine ⟨docs.getLast nonempty, List.getLast?_eq_some_getLast nonempty, ?_⟩
    rw [← List.map_singleton, ← List.map_append, List.dropLast_append_getLast]
  obtain ⟨root, last, whole⟩ := parts (leaf :: ancestors) (by simp)
  obtain ⟨root', last', whole'⟩ := parts (leaf' :: ancestors') (by simp)
  have roots : root.vaidId = root'.vaidId := by
    rw [h.sub root last, h'.sub root' last'] at sub
    exact Json.str.inj sub
  have actors : (leaf :: ancestors).dropLast.map Presented.vaidId =
      (leaf' :: ancestors').dropLast.map Presented.vaidId := by
    cases found : claims.lookup (py "act") with
    | none =>
      rw [h.noActor.mp found, h'.noActor.mp (act ▸ found)]
      rfl
    | some v =>
      obtain ⟨node, rfl, reads⟩ := h.actors v found
      obtain ⟨node', same, reads'⟩ := h'.actors _ (act ▸ found)
      cases same
      exact reads.unique reads'
  rw [whole, whole', roots, actors]

section Issued

variable {keys : TrustedIssuerMap} {revocation : List PyStr → RevocationStatus} {issuance : Issuance}
  {now : UtcDatetime} {leaf : Presented} {chain : List Presented} {ancestors : List Presented}

theorem root_first (leaf : Presented) (ancestors : List Presented) : ∃ root rest,
    (leaf :: ancestors).reverse = root :: rest ∧ (leaf :: ancestors).getLast? = some root ∧
      rest = (leaf :: ancestors).dropLast.reverse ∧ (rest = [] ↔ ancestors = []) := by
  have nonempty : leaf :: ancestors ≠ [] := by simp
  refine ⟨(leaf :: ancestors).getLast nonempty, (leaf :: ancestors).dropLast.reverse, ?_,
    List.getLast?_eq_some_getLast nonempty, rfl, ?_⟩
  · have whole := congrArg List.reverse (List.dropLast_append_getLast nonempty)
    rw [List.reverse_append, List.reverse_singleton] at whole
    exact whole.symm
  · cases ancestors <;> simp

theorem lookup_act (issuance : Issuance) (audience : PyStr) (iat exp : Int) (leaf root : Presented)
    (rest : List Presented) (hash : PyStr) :
    (claimsOf issuance audience iat exp leaf root rest hash).lookup (py "act") =
      (actOf (rest.map Presented.vaidId)).map Json.obj := by
  unfold claimsOf
  cases actOf (rest.map Presented.vaidId) <;> rfl

theorem describes_claimsOf {audience hash : PyStr} {iat exp : Int} {root : Presented}
    {rest : List Presented} (whole : (leaf :: ancestors).reverse = root :: rest)
    (last : (leaf :: ancestors).getLast? = some root)
    (below : rest = (leaf :: ancestors).dropLast.reverse) (alone : rest = [] ↔ ancestors = [])
    (hashed : chainSha256 ((root :: rest).map Presented.dict) = .ok hash) :
    Describes (claimsOf issuance audience iat exp leaf root rest hash) leaf ancestors where
  sub other isLast := by
    rw [last] at isLast
    cases isLast
    rfl
  noActor := by
    rw [lookup_act, ← alone]
    cases rest <;> simp [actOf]
  actors act found := by
    rw [lookup_act] at found
    obtain ⟨node, built, rfl⟩ := Option.map_eq_some_iff.mp found
    refine ⟨node, rfl, ?_⟩
    have reads := readsActors_actOf built
    rwa [← List.map_reverse, below, List.reverse_reverse] at reads
  vaid := ⟨vaidClaim leaf hash, rfl, leaf.get_scopeBoundary.symm, leaf.get_capabilitySet.symm,
    hash, whole ▸ hashed, rfl⟩

theorem expiresAt_of_parse {expiresAt : UtcDatetime}
    (parsed : parseRfc3339Z (leaf.dict.get "expires_at") = .ok expiresAt) :
    leaf.expiresAt = some expiresAt := by
  have read : parseRfc3339 (leaf.dict.get "expires_at") = .ok (some expiresAt) := by
    cases value : leaf.dict.get "expires_at" with
    | str s =>
      rw [value, parseRfc3339Z] at parsed
      rw [parseRfc3339]
      cases stamp : Libraries.fromisoformat s with
      | none =>
        rw [stamp] at parsed
        cases parsed
      | some read =>
        rw [stamp] at parsed
        cases read with
        | naive => cases parsed
        | aware utcMicros => exact congrArg (Except.map some) parsed
    | _ =>
      rw [value] at parsed
      cases parsed
  rw [Presented.expiresAt, read]

theorem le_expiresAt {expiresAt : UtcDatetime} (unexpired : isExpiredAt leaf.dict now = .ok false)
    (reads : leaf.expiresAt = some expiresAt) : now ≤ expiresAt := by
  have alive := (leaf.of_isExpiredAt unexpired).2
  rw [Presented.isExpired, reads, Option.all_some] at alive
  exact not_lt.mp (of_decide_eq_false alive)

theorem of_issueStanding {audience : PyStr} {response : Issued}
    (cleared : Cleared keys now leaf.dict (chain.map Presented.dict) (bundleOf chain))
    (issued : issueStanding revocation issuance audience now leaf.dict (bundleOf chain) =
      .ok (.issued response)) :
    ∃ (ancestors : List Presented) (expiresAt : UtcDatetime) (root : Presented)
      (rest : List Presented) (hash : PyStr),
      Verified keys revocation leaf chain now ancestors ∧
      (∀ a ∈ ancestors, Presented.Delegated a leaf) ∧ leaf.expiresAt = some expiresAt ∧
      (let iat := now.wholeTimestamp
      let exp := min (iat + issuance.defaultTtlSeconds) expiresAt.wholeTimestamp
      iat < exp ∧
        issuance.sign (claimsOf issuance audience iat exp leaf root rest hash) =
          .ok response.accessToken ∧
        Describes (claimsOf issuance audience iat exp leaf root rest hash) leaf ancestors) := by
  obtain ⟨ids, docs, attenuated⟩ := of_verifyChainAt cleared.attenuated
  obtain ⟨ancestors, lineage, rfl, rfl, _, delegated⟩ := delegated_of_attenuated attenuated
  unfold issueStanding at issued
  rw [attenuated.assembled, Raising.ok_bind] at issued
  dsimp only at issued
  split at issued
  · cases issued
  · cases issued
  · rename_i notRevoked
    rw [attenuated.resolved] at issued
    dsimp only at issued
    obtain ⟨root, rest, whole, last, below, alone⟩ := root_first leaf ancestors
    rw [whole, issueToken_eq] at issued
    obtain ⟨hash, hashed, issued⟩ := Raising.of_bind_eq_ok issued
    obtain ⟨expiresAt, parsed, issued⟩ := Raising.of_bind_eq_ok issued
    dsimp only at issued
    split at issued
    · cases issued
    · rename_i alive
      obtain ⟨token, signed, issued⟩ := Raising.of_bind_eq_ok issued
      cases issued
      refine ⟨ancestors, expiresAt, root, rest, hash, ⟨lineage, cleared.attenuated, cleared.unexpired,
        fun d member => ?_, attenuated.assembled, notRevoked⟩, (List.pairwise_cons.mp delegated).1,
        expiresAt_of_parse parsed, not_le.mp alive, signed,
        describes_claimsOf whole last below alone hashed⟩
      exact cleared.evaluable d.dict (by
        rw [← List.map_cons]
        exact List.mem_map_of_mem member)

/-- The leaf's expiry is not so close under a whole second that its timestamp is that second,
or the given lifetime ends before it. -/
def EndsInLife (issuance : Issuance) (now : UtcDatetime) (leaf : Presented) : Prop :=
  ∀ expiresAt, leaf.expiresAt = some expiresAt →
    (now.wholeTimestamp + issuance.defaultTtlSeconds) * 1000000 ≤ expiresAt.epochMicros ∨
      ¬ TrueDivision.RoundsUp expiresAt.epochMicros.toNat 1000000

/-- What a token asserts is what was verified, and its subject and actors determine the
lineage it was issued for. -/
structure Asserts (claims : Dict) (keys : TrustedIssuerMap)
    (revocation : List PyStr → RevocationStatus) (issuance : Issuance) (leaf : Presented)
    (chain : List Presented) (now : UtcDatetime) (ancestors : List Presented) : Prop where
  verified : Verified keys revocation leaf chain now ancestors
  bounded : Bounded claims issuance.defaultTtlSeconds leaf ancestors
  describes : Describes claims leaf ancestors
  determines : ∀ (claims' : Dict) (leaf' : Presented) (ancestors' : List Presented),
    Describes claims' leaf' ancestors' → claims.get "sub" = claims'.get "sub" →
    claims.lookup (py "act") = claims'.lookup (py "act") →
    (leaf :: ancestors).map Presented.vaidId = (leaf' :: ancestors').map Presented.vaidId

/-- The whole second that a token is bounded to is in the leaf's life exactly when it was
not rounded up. -/
theorem bounded_iff (audience hash : PyStr) (root : Presented) (rest : List Presented)
    {expiresAt : UtcDatetime} (since1970 : 0 ≤ now.epochMicros) (later : now ≤ expiresAt)
    (reads : leaf.expiresAt = some expiresAt)
    (delegated : ∀ a ∈ ancestors, Presented.Delegated a leaf)
    (alive : now.wholeTimestamp <
      min (now.wholeTimestamp + issuance.defaultTtlSeconds) expiresAt.wholeTimestamp) :
    Bounded (claimsOf issuance audience now.wholeTimestamp
        (min (now.wholeTimestamp + issuance.defaultTtlSeconds) expiresAt.wholeTimestamp) leaf root rest
        hash) issuance.defaultTtlSeconds leaf ancestors ↔ EndsInLife issuance now leaf := by
  have afterEpoch : 0 ≤ expiresAt.epochMicros := by
    have : now.val ≤ expiresAt.val := later
    unfold UtcDatetime.epochMicros at since1970 ⊢
    omega
  have whole := UtcDatetime.wholeTimestamp_eq afterEpoch
  have ends : min (now.wholeTimestamp + issuance.defaultTtlSeconds) expiresAt.wholeTimestamp *
      1000000 ≤ expiresAt.epochMicros ↔ EndsInLife issuance now leaf := by
    unfold EndsInLife
    simp only [reads, Option.some.injEq, forall_eq']
    rw [whole]
    split_ifs with up <;> simp only [up, not_true_eq_false, not_false_eq_true, or_false, or_true,
      iff_true] <;> omega
  rw [← ends]
  constructor
  · rintro ⟨iat, exp, hiat, hexp, _, _, inLife⟩
    obtain ⟨e, sameReads, bound⟩ := inLife leaf List.mem_cons_self
    cases reads.symm.trans sameReads
    cases hexp
    exact bound
  · intro bound
    refine ⟨_, _, rfl, rfl, alive, by omega, List.forall_mem_cons.mpr ⟨⟨_, reads, bound⟩, ?_⟩⟩
    intro a member
    obtain ⟨upper, lower, ancestorReads, leafReads, le⟩ := (delegated a member).expiresAt
    cases reads.symm.trans leafReads
    refine ⟨upper, ancestorReads, bound.trans ?_⟩
    have : expiresAt.val ≤ upper.val := le
    unfold UtcDatetime.epochMicros
    omega

/-- Every token is issued for a verified chain and describes it. It asserts no more than was
verified exactly when the whole second it is bounded to was not rounded up. -/
theorem issued_asserts_iff {audience tokenType : Option PyStr} {instant : Option UtcDatetime}
    {clock : UtcDatetime} {response : Issued} (since1970 : 0 ≤ (instant.getD clock).epochMicros)
    (issued : exchange ⟨some leaf.dict, chain.map Presented.dict, audience, tokenType⟩ keys revocation
      issuance instant clock = .ok (.issued response)) :
    ∃ claims ancestors, issuance.sign claims = .ok response.accessToken ∧
      Verified keys revocation leaf chain (instant.getD clock) ancestors ∧
      Describes claims leaf ancestors ∧
      (Asserts claims keys revocation issuance leaf chain (instant.getD clock) ancestors ↔
        EndsInLife issuance (instant.getD clock) leaf) := by
  obtain ⟨_, audience, bundle, same, cleared, issued⟩ := of_exchange issued
  cases same
  cases (PresentedBundle.new_ok chain).symm.trans cleared.presented
  obtain ⟨ancestors, expiresAt, root, rest, hash, verified, delegated, reads, alive, signed,
    describes⟩ := of_issueStanding cleared issued
  have bounded := bounded_iff audience hash root rest since1970
    (le_expiresAt cleared.unexpired reads) reads delegated alive
  refine ⟨_, ancestors, signed, verified, describes, fun h => bounded.mp h.bounded, fun h => ?_⟩
  exact ⟨verified, bounded.mpr h, describes,
    fun _ _ _ other sub act => describes.determines other sub act⟩

end Issued

end Verifier

section Example

attribute [local instance] pairLibraries

/-- A signer whose tokens show whether they expire with the second after the leaf. -/
def lateIssuance : Issuance where
  issuer := py "bridge"
  sign claims := .ok (match claims.get "exp" with
    | .num (.int exp) => if exp = 253402300799 then py "late" else []
    | _ => [])
  defaultTtlSeconds := 300
  jti := []

def tokenOf : Raises ExchangeResult → Option PyStr
  | .ok (.issued response) => some response.accessToken
  | _ => none

theorem of_tokenOf {result : Raises ExchangeResult} {token : PyStr}
    (issued : tokenOf result = some token) :
    ∃ response, result = .ok (.issued response) ∧ response.accessToken = token := by
  unfold tokenOf at issued
  split at issued
  · exact ⟨_, rfl, Option.some.inj issued⟩
  · cases issued

theorem late_issued : tokenOf (exchange
    ⟨some pairChild.dict, [pairRoot].map Presented.dict, some (py "api"), none⟩ pairKeys
      (fun _ => .notRevoked) lateIssuance (some pairInstant) 0) = some (py "late") := by
  decide +kernel

theorem issued_asserts_iff_late : ∃ claims ancestors,
    Verified pairKeys (fun _ => .notRevoked) pairChild [pairRoot] pairInstant ancestors ∧
      Describes claims pairChild ancestors := by
  obtain ⟨response, issued, _⟩ := of_tokenOf late_issued
  obtain ⟨claims, ancestors, _, verified, describes, _⟩ := issued_asserts_iff (by decide) issued
  exact ⟨claims, ancestors, verified, describes⟩

/-- The token of this leaf expires with the second after it, and so after the leaf. -/
theorem exchange_outlives_leaf : ∃ response,
    exchange ⟨some pairChild.dict, [pairRoot].map Presented.dict, some (py "api"), none⟩ pairKeys
        (fun _ => .notRevoked) lateIssuance (some pairInstant) 0 = .ok (.issued response) ∧
      ∀ claims ancestors, lateIssuance.sign claims = .ok response.accessToken →
        ¬ Asserts claims pairKeys (fun _ => .notRevoked) lateIssuance pairChild [pairRoot] pairInstant
          ancestors := by
  obtain ⟨response, issued, late⟩ := of_tokenOf late_issued
  refine ⟨response, issued, fun claims ancestors signed asserts => ?_⟩
  have marked : (match claims.get "exp" with
      | .num (.int exp) => if exp = 253402300799 then py "late" else []
      | _ => []) = py "late" := (Except.ok.inj signed).trans late
  obtain ⟨iat, exp, _, expires, _, _, inLife⟩ := asserts.bounded
  obtain ⟨expiresAt, reads, bound⟩ := inLife pairChild List.mem_cons_self
  have leafExpires : pairChild.expiresAt = some ⟨315537897598999999, by decide⟩ := by decide +kernel
  cases reads.symm.trans leafExpires
  simp only [expires] at marked
  split at marked
  · rename_i same
    rw [same] at bound
    exact absurd bound (by decide)
  · cases marked

end Example

end VaidSuite.Python.JwtBridge
