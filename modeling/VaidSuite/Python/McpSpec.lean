import VaidSuite.Python.ChainSpec
import VaidSuite.Python.JwtBridgeSpec
import VaidSuite.Python.Mcp

/-! What the MCP tools vouch for, over chains of any dicts: every ancestor is unexpired and
every document of the lineage authentic. The leaf's own expiry is not asked about. -/
namespace VaidSuite.Python.Mcp

section Tools

variable [Libraries]

omit [Libraries] in
theorem get_of_item {d : Dict} {key : String} {v : PyValue} (found : d.item key = .ok v) :
    d.get key = v := by
  unfold Dict.item at found
  unfold Dict.get
  cases h : d.lookup (py key) with
  | none => simp [h] at found
  | some w =>
    rw [h] at found
    exact Except.ok.inj found

/-- The leaf among presented dicts. A later one replaces an earlier one of the same id. -/
def presentation (leaf : Dict) (ancestors : List Dict) : Presentation Dict PyStr where
  name := vaidIdOf
  parent := parentOf
  leaf := leaf
  find i := (InsertionMap.ofList vaidIdOf ancestors).lookup i
  name_of_find found := (InsertionMap.of_lookup_ofList found).1

omit [Libraries] in
theorem presents (leaf : Dict) {ancestors : List Dict} {bundle : PresentedBundle}
    (presented : PresentedBundle.new ancestors = .ok bundle) :
    Presents (presentation leaf ancestors) id bundle := by
  obtain ⟨_, _, same⟩ := Raising.of_bind_eq_ok presented
  cases same
  exact ⟨fun _ => rfl, fun _ => rfl, fun i => by rw [Option.map_id]; rfl⟩

theorem lineage_of_attenuated {keys : KernelKeyResolver} {leaf : Dict} {ancestors : List Dict}
    {bundle : PresentedBundle} {now : UtcDatetime} {ids : List PyStr} {docs : List Dict}
    (presented : PresentedBundle.new ancestors = .ok bundle)
    (h : Attenuated keys leaf bundle now ids docs) :
    ∃ line, (presentation leaf ancestors).IsLineage maxLineageDepth line ∧
      docs = (leaf :: line).reverse := by
  have assembled : assembleLineage leaf bundle.resolveParent =
      .ok ((presentation leaf ancestors).names maxLineageDepth) :=
    (presents leaf presented).assembleLineage h.shape
  have resolved : ids.mapM (chainDoc leaf bundle) =
      (ids.mapM (presentation leaf ancestors).docOf).map (List.map id) :=
    (presents leaf presented).chainDocs ids
  rw [h.assembled] at assembled
  obtain ⟨line, lineage, rfl⟩ := (Presentation.names_eq_some_iff _ (by decide) _).mp
    (Except.ok.inj assembled).symm
  rw [h.resolved, (presentation leaf ancestors).mapM_docOf (lineage.docOf _)] at resolved
  simp only [Option.map_some, List.map_id, Option.some.injEq] at resolved
  exact ⟨line, lineage, resolved⟩

/-! ### What a hop passes on -/

structure Contains (parent child : Dict) : Prop where
  scope : ∃ boundary, child.item "scope_boundary" = .ok boundary ∧
    scopeAttenuates parent boundary = .ok true
  caps : ∃ capabilities, child.item "capability_set" = .ok capabilities ∧
    capsAttenuate parent capabilities = .ok true

theorem contains_of_hop {keys : KernelKeyResolver} {now : UtcDatetime} {parent child : Dict}
    (held : verifyHop keys .empty now parent child = .ok .attenuated) : Contains parent child := by
  obtain ⟨_, _, held⟩ := Raising.of_bind_eq_ok held
  obtain ⟨_, _, held⟩ := Raising.of_bind_eq_ok held
  obtain ⟨_, held⟩ := Raising.of_unless_eq_ok held nofun
  obtain ⟨boundary, hasBoundary, held⟩ := Raising.of_bind_eq_ok held
  obtain ⟨scopeHolds, held⟩ := Raising.of_unless_eq_ok held nofun
  obtain ⟨capabilities, hasCapabilities, held⟩ := Raising.of_bind_eq_ok held
  obtain ⟨capsHold, _⟩ := Raising.of_unless_eq_ok held nofun
  exact ⟨⟨boundary, hasBoundary, scopeHolds⟩, capabilities, hasCapabilities, capsHold⟩

theorem contains_of_hops {keys : KernelKeyResolver} {now : UtcDatetime} {docs : List Dict}
    (held : verifyHops keys .empty now docs = .ok .attenuated) : docs.IsChain Contains := by
  induction docs with
  | nil => exact .nil
  | cons parent docs ih =>
    cases docs with
    | nil => exact .singleton _
    | cons child docs =>
      obtain ⟨hop, rest⟩ := verifyHops_cons held
      exact List.isChain_cons_cons.mpr ⟨contains_of_hop hop, ih rest⟩

omit [Libraries] in
theorem isInScope_of_contains {parent child : Dict} (h : Contains parent child) {resource : PyStr}
    (held : isInScope child resource = .ok true) : isInScope parent resource = .ok true := by
  obtain ⟨boundary, hasBoundary, attenuates⟩ := h.scope
  obtain ⟨parentBoundary, parentHas, attenuates⟩ := Raising.of_bind_eq_ok attenuates
  obtain ⟨reason, reasoned, attenuated⟩ := Raising.of_bind_eq_ok attenuates
  obtain ⟨parentEntries, parentIter, reasoned⟩ := Raising.of_bind_eq_ok reasoned
  rw [isInScope, hasBoundary, Raising.ok_bind] at held
  obtain ⟨entries, childIter, held⟩ := Raising.of_bind_eq_ok held
  have within : scopeAttenuatesWithin (.arr parentEntries) (.arr entries) = .ok true := by
    rw [scopeAttenuatesWithin, scopeAttenuationReason, iter, iter, Raising.ok_bind]
    rw [childIter] at reasoned
    rw [reasoned, Raising.ok_bind]
    exact attenuated
  rw [scopeAttenuatesWithin_arr] at within
  have inScope := Except.ok.inj held
  rw [scopeContains_eq] at inScope
  rw [isInScope, parentHas, Raising.ok_bind, parentIter, Raising.ok_bind]
  refine congrArg Except.ok ?_
  rw [scopeContains_eq]
  have contained := Except.ok.inj within
  cases hp : claimedResources parentEntries with
  | none => simp [hp] at contained
  | some ps =>
    cases hc : claimedResources entries with
    | none => simp [hc] at inScope
    | some cs =>
      simp only [hp, hc] at contained inScope ⊢
      exact Containment.within_trans prefixContains_trans contained inScope

omit [Libraries] in
def hasCapabilityList (d : Dict) : Bool :=
  match d.get "capability_set" with
  | .arr _ => true
  | _ => false

omit [Libraries] in
theorem hasCapabilityList_of_hasCapability {d : Dict} {capability : PyStr}
    (held : hasCapability d capability = true) : hasCapabilityList d = true := by
  unfold hasCapability at held
  unfold hasCapabilityList
  cases listed : d.get "capability_set" with
  | arr capabilities => rfl
  | _ => rw [listed] at held; cases held

omit [Libraries] in
theorem hasCapability_of_contains {parent child : Dict} (h : Contains parent child)
    (listed : hasCapabilityList parent = true) {capability : PyStr}
    (held : hasCapability child capability = true) : hasCapability parent capability = true := by
  obtain ⟨capabilities, childHas, attenuates⟩ := h.caps
  obtain ⟨parentCapabilities, parentHas, attenuates⟩ := Raising.of_bind_eq_ok attenuates
  obtain ⟨items, childIter, attenuates⟩ := Raising.of_bind_eq_ok attenuates
  unfold hasCapability at held
  rw [get_of_item childHas] at held
  unfold hasCapabilityList at listed
  unfold hasCapability
  rw [get_of_item parentHas] at listed ⊢
  cases parentCapabilities with
  | arr parentItems =>
    cases capabilities with
    | arr childItems =>
      cases childIter
      obtain ⟨item, member, same⟩ := List.any_eq_true.mp held
      have itemStr : item = .str capability := by
        cases item with
        | str s =>
          rw [pyEq_str, beq_iff_eq] at same
          rw [same]
        | _ => simp [pyEq] at same
      have inParent := Raising.of_allM_eq_true attenuates item member
      rw [itemStr] at inParent
      exact Except.ok.inj inParent
    | _ => cases held
  | _ => cases listed

omit [Libraries] in
theorem all_of_chain {P : Dict → Prop} {leaf : Dict} {line : List Dict}
    (up : ∀ child parent, parent ∈ line → Contains parent child → P child → P parent)
    (hops : (leaf :: line).IsChain (fun child parent => Contains parent child)) (held : P leaf) :
    ∀ d ∈ leaf :: line, P d := by
  induction line generalizing leaf with
  | nil => simpa using held
  | cons parent line ih =>
    obtain ⟨hop, hops⟩ := List.isChain_cons_cons.mp hops
    have next := up leaf parent List.mem_cons_self hop held
    exact List.forall_mem_cons.mpr ⟨held,
      ih (fun child d member => up child d (List.mem_cons_of_mem _ member)) hops next⟩

omit [Libraries] in
/-- The leaf of a pasted chain, and its ancestors up to a root. -/
def Pasted (chain : PyValue) (leaf : Dict) (line : List Dict) : Prop :=
  ∃ ancestors, parseChain chain = .ok (leaf, ancestors) ∧
    (presentation leaf ancestors).IsLineage maxLineageDepth line

/-- Nothing on the lineage has expired, and all of it is authentic under a trusted key. -/
structure Current (keys : KernelKeyResolver) (leaf : Dict) (line : List Dict) (now : UtcDatetime) :
    Prop where
  unexpired : ∀ d ∈ leaf :: line, isExpiredAt d now = .ok false
  authentic : ∀ d ∈ leaf :: line, authenticate keys d = .ok true

/-- The lineage is current, and all of it holds the capability and reaches the resource. -/
structure Authorizes (keys : KernelKeyResolver) (leaf : Dict) (line : List Dict) (now : UtcDatetime)
    (requestedAction resource : PyStr) : Prop where
  current : Current keys leaf line now
  capability : ∀ d ∈ leaf :: line, hasCapability d requestedAction = true
  inScope : ∀ d ∈ leaf :: line, isInScope d resource = .ok true

theorem of_verifyChainResult {chain : PyValue} {keys : ResolvedKeys} {now : Option UtcDatetime}
    {clock : UtcDatetime} {result : ChainVerifyResult}
    (returned : verifyChainResult chain keys now clock = .ok result)
    (attenuated : result.verdict = .attenuated) : ∃ leaf line, Pasted chain leaf line ∧
      (Current keys.resolver leaf line (now.getD clock) ↔
        isExpiredAt leaf (now.getD clock) = .ok false) ∧
      (leaf :: line).IsChain (fun child parent => Contains parent child) := by
  obtain ⟨⟨leaf, ancestors⟩, parsed, returned⟩ := Raising.of_bind_eq_ok returned
  obtain ⟨bundle, presented, returned⟩ := Raising.of_bind_eq_ok returned
  obtain ⟨verdict, verified, returned⟩ := Raising.of_bind_eq_ok returned
  obtain ⟨leafHop, _, returned⟩ := Raising.of_bind_eq_ok returned
  obtain ⟨hops, _, returned⟩ := Raising.of_bind_eq_ok returned
  cases returned
  cases attenuated
  obtain ⟨ids, docs, h⟩ := of_verifyChainAt verified
  obtain ⟨line, lineage, rfl⟩ := lineage_of_attenuated presented h
  refine ⟨leaf, line, ⟨ancestors, parsed, lineage⟩,
    ⟨fun c => c.unexpired leaf List.mem_cons_self, fun leafUnexpired => ⟨?_, ?_⟩⟩,
    List.isChain_reverse.mp (contains_of_hops h.hops)⟩
  · refine List.forall_mem_cons.mpr ⟨leafUnexpired, fun d member => h.unlapsed d ?_⟩
    rw [List.reverse_cons, List.dropLast_concat]
    exact List.mem_reverse.mpr member
  · refine List.forall_mem_cons.mpr ⟨h.authentic leaf List.mem_cons_self, fun d member => ?_⟩
    refine h.authentic d (List.mem_cons_of_mem _ ?_)
    obtain ⟨_, _, same⟩ := Raising.of_bind_eq_ok presented
    cases same
    exact List.mem_map.mpr ⟨_, InsertionMap.mem_of_lookup (lineage.presented d member), rfl⟩

omit [Libraries] in
theorem parse_unique {chain : PyValue} {leaf leaf' : Dict} {line ancestors : List Dict}
    (pasted : Pasted chain leaf line) (parsed : parseChain chain = .ok (leaf', ancestors)) :
    leaf = leaf' := by
  obtain ⟨_, first, _⟩ := pasted
  rw [first] at parsed
  cases parsed
  rfl

/-- Of a chain that the tools call attenuated, nothing has expired and all is authentic
exactly when the leaf has not expired. What they permit, the lineage authorizes exactly when
moreover every ancestor lists its capabilities. -/
theorem tools_vouch_iff (chain : PyValue) (keys : ResolvedKeys) (requestedAction resource : PyStr)
    (now : Option UtcDatetime) (clock : UtcDatetime) :
    (∀ result, verifyChainResult chain keys now clock = .ok result → result.verdict = .attenuated →
      ∃ leaf line, Pasted chain leaf line ∧ (Current keys.resolver leaf line (now.getD clock) ↔
        isExpiredAt leaf (now.getD clock) = .ok false)) ∧
    ∀ result, checkScope chain keys requestedAction resource now clock = .ok result →
      result.permitted = some true → ∃ leaf line, Pasted chain leaf line ∧
        (Authorizes keys.resolver leaf line (now.getD clock) requestedAction resource ↔
          isExpiredAt leaf (now.getD clock) = .ok false ∧
            ∀ d ∈ line, hasCapabilityList d = true) := by
  refine ⟨fun result returned attenuated => ?_, fun result returned permitted => ?_⟩
  · obtain ⟨leaf, line, pasted, current, _⟩ := of_verifyChainResult returned attenuated
    exact ⟨leaf, line, pasted, current⟩
  · obtain ⟨chainResult, verified, returned⟩ := Raising.of_bind_eq_ok returned
    split at returned
    · cases returned
      cases permitted
    · rename_i attenuated
      obtain ⟨leaf, line, pasted, current, hops⟩ :=
        of_verifyChainResult verified (not_not.mp attenuated)
      obtain ⟨⟨leaf', _⟩, parsed, returned⟩ := Raising.of_bind_eq_ok returned
      cases parse_unique pasted parsed
      obtain ⟨inScope, reached, returned⟩ := Raising.of_bind_eq_ok returned
      split at returned
      · rename_i granted
        obtain ⟨hasCap, inScopeTrue⟩ := Bool.and_eq_true_iff.mp granted
        rw [inScopeTrue] at reached
        refine ⟨leaf, line, pasted, fun h => ⟨current.mp h.current, fun d member => ?_⟩, ?_⟩
        · exact hasCapabilityList_of_hasCapability (h.capability d (List.mem_cons_of_mem _ member))
        · rintro ⟨unexpired, lists⟩
          refine ⟨current.mpr unexpired, all_of_chain ?_ hops hasCap,
            all_of_chain ?_ hops reached⟩
          · exact fun child parent member held =>
              hasCapability_of_contains held (lists parent member)
          · exact fun child parent _ held => isInScope_of_contains held
      · cases returned
        cases permitted

end Tools

section Example

/-- Libraries that read one timestamp, and under which everything is signed. -/
local instance lapsedLibraries : Libraries :=
  { Libraries.plain with
    canonicalize := fun _ => some []
    ed25519Verify := fun _ _ _ => true
    fromisoformat := fun s =>
      if s = py "9999-12-31T23:59:58.999999Z" then some (.aware 315537897598999999) else none }

def lapsedDict : Dict :=
  [(py "vaid_id", .str (py "00000000-0000-4000-8000-000000000001")),
    (py "agent_id", .str (py "00000000-0000-4000-8000-000000000002")),
    (py "agent_class", .str (py "researcher")), (py "version", .str (py "1.0.0")),
    (py "tenant_id", .str (py "acme")), (py "issued_at", .str (py "9999-12-31T23:00:00Z")),
    (py "expires_at", .str (py "9999-12-31T23:59:58.999999Z")), (py "public_key_der", .arr []),
    (py "kernel_signature", .arr []), (py "scope_boundary", .arr []),
    (py "lineage_hash", .str []), (py "capability_set", .arr [.str (py "read")]),
    (py "trust_domain", .str (py "vaid.example")), (py "sig_version", .num (.int 4)),
    (py "kernel_key_thumbprint", .str (py "urn:ietf:params:oauth:jwk-thumbprint:sha-256:"))]

def lapsedChain : PyValue := .obj [(py "leaf", .obj lapsedDict)]

def lapsedKeys : ResolvedKeys := ⟨fun _ => .ok (some (List.replicate 32 0)), [], py "public_key"⟩

/-- Half a second after the leaf has expired. -/
def lapsedInstant : UtcDatetime := 315537897599500000

def permittedOf : Raises ScopeCheckResult → Option Bool
  | .ok result => result.permitted
  | .error _ => none

theorem of_permittedOf {result : Raises ScopeCheckResult} {permitted : Bool}
    (answered : permittedOf result = some permitted) :
    ∃ answer, result = .ok answer ∧ answer.permitted = some permitted := by
  cases result with
  | ok answer => exact ⟨answer, rfl, answered⟩
  | error e => cases answered

theorem lapsed_permitted : permittedOf (checkScope lapsedChain lapsedKeys (py "read") (py "/files")
    (some lapsedInstant) 0) = some true := by
  decide +kernel

theorem tools_vouch_iff_lapsed : ∃ leaf line, Pasted lapsedChain leaf line ∧
    (Authorizes lapsedKeys.resolver leaf line lapsedInstant (py "read") (py "/files") ↔
      isExpiredAt leaf lapsedInstant = .ok false ∧ ∀ d ∈ line, hasCapabilityList d = true) := by
  obtain ⟨result, returned, permitted⟩ := of_permittedOf lapsed_permitted
  exact (tools_vouch_iff lapsedChain lapsedKeys (py "read") (py "/files") (some lapsedInstant) 0).2
    result returned permitted

/-- The expired root is permitted to act. -/
theorem checkScope_permits_lapsed :
    permittedOf (checkScope lapsedChain lapsedKeys (py "read") (py "/files") (some lapsedInstant) 0) =
      some true ∧
    ∀ leaf line, Pasted lapsedChain leaf line →
      ¬ Authorizes lapsedKeys.resolver leaf line lapsedInstant (py "read") (py "/files") := by
  refine ⟨lapsed_permitted, fun leaf line pasted authorizes => ?_⟩
  cases parse_unique pasted (show parseChain lapsedChain = .ok (lapsedDict, []) from rfl)
  have expired : isExpiredAt lapsedDict lapsedInstant = .ok true := by decide +kernel
  have unexpired := authorizes.current.unexpired lapsedDict List.mem_cons_self
  rw [expired] at unexpired
  cases unexpired

end Example

end VaidSuite.Python.Mcp
