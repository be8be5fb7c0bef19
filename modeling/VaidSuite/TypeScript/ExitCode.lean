import VaidSuite.TypeScript.ContentHash

/-! What the exit code 0 of the bundle verifier says. The state of the delegation chain lets a
caveat come before what was not checked, so that an envelope with a caveat hides the ledger
references beside it. -/
namespace VaidSuite.TypeScript.EvidenceBundle

section

variable [Host] {session : Session} {opts : Options} {bundle : Members} {result : BundleResult}

/-- The state of a finding about a check that ran and did not fail. -/
def Ran (finding : Finding) : Prop := finding.state ≠ .fail ∧ finding.state ≠ .notChecked

omit [Host] in
theorem exitCodeFor_eq_zero (result : BundleResult) :
    exitCodeFor result = 0 ↔ result.malformed = false ∧ ∀ f ∈ result.findings, Ran f := by
  unfold exitCodeFor Ran
  split_ifs with malformed failed unchecked
  · simp [malformed]
  · obtain ⟨f, listed, state⟩ := List.any_eq_true.mp failed
    refine iff_of_false (by decide) (fun h => (h.2 f listed).1 (by simpa using state))
  · obtain ⟨f, listed, state⟩ := List.any_eq_true.mp unchecked
    refine iff_of_false (by decide) (fun h => (h.2 f listed).2 (by simpa using state))
  · simp only [List.any_eq_true, decide_eq_true_eq, not_exists, not_and] at failed unchecked
    simp only [true_iff]
    exact ⟨by simpa using malformed, fun f listed => ⟨failed f listed, unchecked f listed⟩⟩

theorem keyDecision_ran {sources : List KeySource} (ran : Ran (keyDecision sources).finding) :
    ∃ a b, gatingAnswered sources = [a, b] ∧ (keyDecision sources).trusted = some a.2 ∧
      ∀ c ∈ answered sources, c.2 = a.2 := by
  revert ran
  fun_cases keyDecision sources with
  | case1 none_ => exact fun ran => absurd rfl ran.2
  | case2 first others listed disagree => exact fun ran => absurd rfl ran.1
  | case3 first others listed agree a b gating =>
    intro _
    have same : ∀ c ∈ answered sources, c.2 = first.2 := by
      intro c member
      rw [listed] at member
      have agrees : agrees c first = true := by
        by_contra disagrees
        exact agree (List.any_eq_true.mpr ⟨c, member, by simpa using disagrees⟩)
      rw [EvidenceBundle.agrees, Bool.and_eq_true, beq_iff_eq] at agrees
      exact agrees.1
    have own : a ∈ answered sources := List.mem_of_mem_filter (gating ▸ List.mem_cons_self)
    exact ⟨a, b, gating, rfl, fun c member => (same c member).trans (same a own).symm⟩
  | case4 first others listed agree gating => exact fun ran => absurd rfl ran.2

omit [Host] in
theorem gating_answered {a b : Answered} (two : gatingAnswered (sources session opts) = [a, b]) :
    ∀ s ∈ sources session opts, s.gating = true → s.got.key.isSome = true := by
  have count := congrArg List.length two
  cases pinned : session.pinned.key <;> cases site : session.site.key <;>
    cases live : (liveAnswer session opts).key <;>
    simp_all [gatingAnswered, answered, sources]

theorem checkSignature_ran {decision : KeyDecision} {crossChecked : Bool} {finding : Finding}
    (made : checkSignature bundle decision crossChecked = .ok finding) (ran : Ran finding) :
    ∃ key, decision.trusted = some key ∧ ∃ sig,
      Host.unb64u ((memberOf (valueOf bundle "signature") "sig_b64").asStr.getD []) = some sig ∧
      sig.length = 64 ∧ ∃ c ∈ candidates bundle, Runtime.ed25519Verify sig c.2 key = true := by
  unfold checkSignature at made
  simp only at made
  split at made
  · cases Except.ok.inj made
    exact absurd rfl ran.2
  · rename_i key trusted
    refine ⟨key, trusted, ?_⟩
    split at made
    · cases Except.ok.inj made
      exact absurd rfl ran.2
    · split at made
      · cases Except.ok.inj made
        exact absurd rfl ran.1
      · rename_i sig decoded
        refine ⟨sig, decoded, ?_⟩
        split at made
        · cases Except.ok.inj made
          exact absurd rfl ran.1
        · rename_i length
          split at made
          · rename_i hit found
            have verified := List.find?_some found
            exact ⟨by simpa using length, hit, List.mem_of_find?_eq_some found, verified⟩
          · cases Except.ok.inj made
            exact absurd rfl ran.1

/-- The headline that `verifyEnvelope` gives an entry. -/
def headlineAt (anchor : Anchor) (instant : Int) (entry : JsValue) : Option Headline :=
  match verifyEnvelope (envelopeInput entry) anchor instant with
  | .ok r => some r.headline
  | .error _ => none

def accepts (headline : Option Headline) : Bool :=
  decide (headline = some .valid) || decide (headline = some .validWithCaveats)

/-- An entry that is taken for an envelope and not accepted. -/
def failsAt (anchor : Anchor) (instant : Int) (entry : JsValue) : Bool :=
  !isLedgerReferenceEntry entry && !accepts (headlineAt anchor instant entry)

def caveatAt (anchor : Anchor) (instant : Int) (entry : JsValue) : Bool :=
  !isLedgerReferenceEntry entry && decide (headlineAt anchor instant entry = some .validWithCaveats)

theorem checkEntry_counts {anchor : Anchor} {instant : Int} {tty : Bool} {i : Nat} {entry : JsValue}
    {tally tally' : Tally} (step : checkEntry anchor instant tty i entry tally = .ok tally') :
    tally'.failed = tally.failed + (failsAt anchor instant entry).toNat ∧
      tally'.caveated = tally.caveated + (caveatAt anchor instant entry).toNat := by
  unfold checkEntry at step
  unfold failsAt caveatAt headlineAt
  simp only at step
  split at step
  · rename_i reference
    obtain ⟨id, _, step⟩ := Raising.of_bind_eq_ok step
    obtain ⟨seq, _, step⟩ := Raising.of_bind_eq_ok step
    cases Except.ok.inj step
    simp [reference]
  · rename_i envelope
    split at step
    · rename_i e thrown
      cases Except.ok.inj step
      simp [envelope, thrown, accepts]
    · rename_i r verified
      obtain ⟨id, _, step⟩ := Raising.of_bind_eq_ok step
      split at step
      · rename_i headline
        cases Except.ok.inj step
        simp [envelope, verified, headline, accepts]
      · rename_i headline
        cases Except.ok.inj step
        simp [envelope, verified, headline, accepts]
      · rename_i headline notValid notCaveated
        cases Except.ok.inj step
        have other : r.headline ≠ .valid ∧ r.headline ≠ .validWithCaveats := ⟨notValid, notCaveated⟩
        simp [envelope, verified, accepts, other]

theorem checkEntries_counts {anchor : Anchor} {instant : Int} {tty : Bool} {i : Nat}
    {entries : List JsValue} {tally tally' : Tally}
    (run : checkEntries anchor instant tty i entries tally = .ok tally') :
    tally'.failed = tally.failed + entries.countP (failsAt anchor instant) ∧
      tally'.caveated = tally.caveated + entries.countP (caveatAt anchor instant) := by
  induction entries generalizing i tally with
  | nil =>
    cases Except.ok.inj run
    simp
  | cons entry entries ih =>
    rw [checkEntries] at run
    obtain ⟨next, step, rest⟩ := Raising.of_bind_eq_ok run
    obtain ⟨failed, caveated⟩ := checkEntry_counts step
    obtain ⟨failed', caveated'⟩ := ih rest
    rw [List.countP_cons, List.countP_cons, failed', caveated', failed, caveated]
    constructor
    · cases failsAt anchor instant entry with
      | true => simp; omega
      | false => simp
    · cases caveatAt anchor instant entry with
      | true => simp; omega
      | false => simp

theorem delegationFinding_ran {chain : List JsValue} {finding : Finding}
    (made : delegationFinding session opts bundle chain = .ok finding) (ran : Ran finding) :
    chain ≠ [] ∧ ∃ anchor instant, session.anchor = .loaded anchor ∧
      evaluationInstant session opts bundle = .ok instant ∧
      (∀ e ∈ chain, failsAt anchor instant e = false) ∧
      ((∃ e ∈ chain, caveatAt anchor instant e = true) ∨ ∀ e ∈ chain, isLedgerReferenceEntry e = false) := by
  unfold delegationFinding at made
  obtain ⟨note, _, made⟩ := Raising.of_bind_eq_ok made
  simp only at made
  split at made
  · cases Except.ok.inj made
    exact absurd rfl ran.2
  · rename_i nonempty
    refine ⟨by simpa using nonempty, ?_⟩
    split at made
    · cases Except.ok.inj made
      exact absurd rfl ran.2
    · split at made
      · cases Except.ok.inj made
        exact absurd rfl ran.2
      · cases Except.ok.inj made
        exact absurd rfl ran.2
      · rename_i anchor loaded
        obtain ⟨instant, evaluated, made⟩ := Raising.of_bind_eq_ok made
        obtain ⟨tally, run, made⟩ := Raising.of_bind_eq_ok made
        cases Except.ok.inj made
        obtain ⟨failed, caveated⟩ := checkEntries_counts run
        rw [Nat.zero_add] at failed caveated
        refine ⟨anchor, instant, loaded, evaluated, ?_⟩
        unfold Ran chainFindingOf tallyState at ran
        simp only at ran
        split_ifs at ran with some_ hidden none_
        · exact absurd rfl ran.1
        · refine ⟨fun e listed => ?_, .inl (List.countP_pos_iff.mp (caveated ▸ hidden))⟩
          simpa using List.countP_eq_zero.mp (by omega) e listed
        · refine ⟨fun e listed => ?_, .inr (fun e listed => ?_)⟩
          · simpa using List.countP_eq_zero.mp (by omega) e listed
          · simpa using List.filter_eq_nil_iff.mp (List.length_eq_zero_iff.mp none_) e listed
        · exact absurd rfl ran.2

omit [Host] in
/-- A row follows the row before it. -/
def LinksTo (prev e : JsValue) : Prop :=
  (memberOf e "prev_hash").strictEq (memberOf prev "entry_hash") = true ∧
    ∀ seq, asNumber (memberOf e "seq") = some seq → ∀ prevSeq,
      asNumber (memberOf prev "seq") = some prevSeq →
        Binary64.eq seq (Binary64.add prevSeq (Binary64.ofNat 1)) = true

omit [Host] in
def IsRow (e : JsValue) : Prop :=
  isObjectType e = true ∧
    ∀ n ∈ ["entry_hash", "prev_hash", "seq"], (memberOf e n).strictEq .undefined = false

theorem brokenLink_eq_nil {i : Nat} {prev e : JsValue} {problems : List JsStr}
    (made : brokenLink i prev e = .ok problems) : problems = [] ↔
      (memberOf e "prev_hash").strictEq (memberOf prev "entry_hash") = true := by
  unfold brokenLink at made
  split_ifs at made with same
  · cases Except.ok.inj made
    simp [same]
  · obtain ⟨_, _, made⟩ := Raising.of_bind_eq_ok made
    obtain ⟨_, _, made⟩ := Raising.of_bind_eq_ok made
    obtain ⟨_, _, made⟩ := Raising.of_bind_eq_ok made
    obtain ⟨_, _, made⟩ := Raising.of_bind_eq_ok made
    cases Except.ok.inj made
    simp [same]

theorem outOfStep_eq_nil {i : Nat} {prev e : JsValue} {problems : List JsStr}
    (made : outOfStep i prev e = .ok problems) : problems = [] ↔
      ∀ seq, asNumber (memberOf e "seq") = some seq → ∀ prevSeq,
        asNumber (memberOf prev "seq") = some prevSeq →
          Binary64.eq seq (Binary64.add prevSeq (Binary64.ofNat 1)) = true := by
  unfold outOfStep at made
  split at made
  · rename_i seq prevSeq numbered numberedPrev
    rw [numbered, numberedPrev]
    split_ifs at made with next
    · cases Except.ok.inj made
      simp [next]
    · obtain ⟨_, _, made⟩ := Raising.of_bind_eq_ok made
      obtain ⟨_, _, made⟩ := Raising.of_bind_eq_ok made
      obtain ⟨_, _, made⟩ := Raising.of_bind_eq_ok made
      cases Except.ok.inj made
      simp [next]
  · rename_i notBoth
    cases Except.ok.inj made
    exact iff_of_true rfl (fun seq numbered prevSeq numberedPrev =>
      (notBoth seq prevSeq numbered numberedPrev).elim)

theorem linkProblemsOf_eq_nil {i : Nat} {prev : Option JsValue} {e : JsValue} {problems : List JsStr}
    (made : linkProblemsOf i prev e = .ok problems) : problems = [] ↔ ∀ p ∈ prev, LinksTo p e := by
  cases prev with
  | none =>
    cases Except.ok.inj made
    simp
  | some prev =>
    obtain ⟨broken, hashes, made⟩ := Raising.of_bind_eq_ok made
    obtain ⟨unordered, seqs, made⟩ := Raising.of_bind_eq_ok made
    cases Except.ok.inj made
    rw [List.append_eq_nil_iff, brokenLink_eq_nil hashes, outOfStep_eq_nil seqs]
    simp [LinksTo]

theorem auditRow_problems {i : Nat} {prev : Option JsValue} {e : JsValue} {tally tally' : AuditTally}
    (step : auditRow i prev e tally = .ok tally') :
    tally'.linkProblems = [] ↔ tally.linkProblems = [] ∧ IsRow e ∧ ∀ p ∈ prev, LinksTo p e := by
  unfold auditRow at step
  split at step
  · rename_i notObject
    cases Except.ok.inj step
    have notObject : isObjectType e = false := by simpa using notObject
    simp [IsRow, notObject]
  · rename_i object
    have object : isObjectType e = true := by simpa using object
    simp only at step
    obtain ⟨links, made, step⟩ := Raising.of_bind_eq_ok step
    have problems : tally'.linkProblems = tally.linkProblems ++ (["entry_hash", "prev_hash", "seq"].filter
        (fun n => (memberOf e n).strictEq .undefined)).map (fun n => rowText i (js "has no " ++ js n)) ++
          links := by
      split at step
      · split at step
        · rw [← Except.ok.inj step]
        · obtain ⟨recomputed, _, step⟩ := Raising.of_bind_eq_ok step
          split at step
          · rw [← Except.ok.inj step]
          · obtain ⟨seq, _, step⟩ := Raising.of_bind_eq_ok step
            rw [← Except.ok.inj step]
      · rw [← Except.ok.inj step]
    rw [problems, List.append_eq_nil_iff, List.append_eq_nil_iff, List.map_eq_nil_iff,
      List.filter_eq_nil_iff, linkProblemsOf_eq_nil made, and_assoc, IsRow, object]
    simp only [Bool.not_eq_true, true_and]

theorem auditRows_problems {i : Nat} {prev : Option JsValue} {entries : List JsValue}
    {tally tally' : AuditTally} (run : auditRows i prev entries tally = .ok tally') :
    tally'.linkProblems = [] ↔ tally.linkProblems = [] ∧ (∀ e ∈ entries, IsRow e) ∧
      (∀ e ∈ entries.head?, ∀ p ∈ prev, LinksTo p e) ∧ entries.IsChain LinksTo := by
  induction entries generalizing i prev tally with
  | nil =>
    cases Except.ok.inj run
    simp
  | cons e entries ih =>
    rw [auditRows] at run
    obtain ⟨next, step, rest⟩ := Raising.of_bind_eq_ok run
    rw [ih rest, auditRow_problems step, List.forall_mem_cons, List.isChain_cons]
    simp only [List.head?_cons, Option.mem_def, Option.some.injEq, forall_eq']
    tauto

theorem auditChainFindings_ran {entries : List JsValue} {findings : List Finding}
    (made : auditChainFindings entries = .ok findings) (ran : ∀ f ∈ findings, Ran f) :
    entries ≠ [] ∧ (∀ e ∈ entries, IsRow e) ∧ entries.IsChain LinksTo := by
  unfold auditChainFindings at made
  split at made
  · cases Except.ok.inj made
    exact absurd rfl (ran _ List.mem_cons_self).2
  · rename_i nonempty
    refine ⟨by simpa using nonempty, ?_⟩
    obtain ⟨tally, run, made⟩ := Raising.of_bind_eq_ok made
    obtain ⟨linkage, linked, made⟩ := Raising.of_bind_eq_ok made
    cases Except.ok.inj made
    have noProblem : tally.linkProblems = [] := by
      unfold linkageOf at linked
      split at linked
      · cases Except.ok.inj linked
        exact absurd rfl (ran _ List.mem_cons_self).1
      · rename_i none_
        simpa using none_
    have whole := (auditRows_problems run).mp noProblem
    exact ⟨whole.2.1, whole.2.2.2⟩

structure EveryCheckRan (session : Session) (opts : Options) (bundle : Members) : Prop where
  contentHash : hashMatches bundle = true
  bothPublications : ∀ s ∈ sources session opts, s.gating = true → s.got.key.isSome = true
  /-- One key is given by all that answered, and verifies the signature over the hash. -/
  signature : ∃ key, (∀ a ∈ answered (sources session opts), a.2 = key) ∧ ∃ sig,
    Host.unb64u ((memberOf (valueOf bundle "signature") "sig_b64").asStr.getD []) = some sig ∧
      sig.length = 64 ∧ ∃ c ∈ candidates bundle, Runtime.ed25519Verify sig c.2 key = true
  someEntry : itemsOf (valueOf bundle "delegation_chain") ≠ []
  envelopes : ∃ anchor instant, session.anchor = .loaded anchor ∧
    evaluationInstant session opts bundle = .ok instant ∧
    ∀ e ∈ itemsOf (valueOf bundle "delegation_chain"), isLedgerReferenceEntry e = false ∧
      (headlineAt anchor instant e = some .valid ∨ headlineAt anchor instant e = some .validWithCaveats)
  someRow : itemsOf (valueOf bundle "audit_entries") ≠ []
  rows : ∀ e ∈ itemsOf (valueOf bundle "audit_entries"), IsRow e
  linked : (itemsOf (valueOf bundle "audit_entries")).IsChain LinksTo

def SomeCaveat (session : Session) (opts : Options) (bundle : Members) : Prop :=
  ∃ anchor instant, session.anchor = .loaded anchor ∧ evaluationInstant session opts bundle = .ok instant ∧
    ∃ e ∈ itemsOf (valueOf bundle "delegation_chain"), caveatAt anchor instant e = true

/-- The exit code 0 says that every check ran where no envelope with a caveat hides a ledger
reference. -/
theorem everyCheckRan_iff (run : verifyBundle session opts bundle = .ok result)
    (zero : exitCodeFor result = 0) : EveryCheckRan session opts bundle ↔
      ¬ (SomeCaveat session opts bundle ∧
        ∃ e ∈ itemsOf (valueOf bundle "delegation_chain"), isLedgerReferenceEntry e = true) := by
  obtain ⟨wellFormed, ran⟩ := (exitCodeFor_eq_zero result).mp zero
  rcases of_verifyBundle_eq_ok run with refused | ⟨_, names, signature, delegation, audit, policy, _,
    signed, delegated, audited, _, rfl⟩
  · obtain ⟨detail, findings⟩ := shapeRefusal_findings refused
    exact absurd rfl (ran _ (findings ▸ List.mem_cons_self)).1
  obtain ⟨a, b, gating, trusted, agreed⟩ := keyDecision_ran (ran (keyDecision (sources session opts)).finding (by simp))
  obtain ⟨key, same, signature⟩ := checkSignature_ran signed (ran _ (by simp))
  cases Option.some.inj (trusted.symm.trans same)
  obtain ⟨someEntry, anchor, instant, loaded, evaluated, accepted, unhidden⟩ :=
    delegationFinding_ran delegated (ran _ (by simp))
  obtain ⟨someRow, rows, linked⟩ := auditChainFindings_ran audited (fun f listed => ran f (by simp [listed]))
  have matched : hashMatches bundle = true := by
    have passed := ran (contentHashFinding bundle) (by simp)
    by_contra unmatched
    refine passed.1 ?_
    rw [contentHashFinding, if_neg unmatched]
  constructor
  · rintro whole ⟨_, e, listed, reference⟩
    obtain ⟨_, _, _, _, each⟩ := whole.envelopes
    rw [(each e listed).1] at reference
    cases reference
  · intro shown
    have none_ : ∀ e ∈ itemsOf (valueOf bundle "delegation_chain"), isLedgerReferenceEntry e = false := by
      intro e listed
      rcases unhidden with ⟨e', listed', caveat⟩ | none_
      · by_contra reference
        exact shown ⟨⟨anchor, instant, loaded, evaluated, e', listed', caveat⟩, e, listed, by simpa using reference⟩
      · exact none_ e listed
    refine ⟨matched, gating_answered gating, ⟨a.2, agreed, signature⟩, someEntry,
      ⟨anchor, instant, loaded, evaluated, fun e listed => ⟨none_ e listed, ?_⟩⟩, someRow, rows, linked⟩
    have verdict : accepts (headlineAt anchor instant e) = true := by
      simpa [failsAt, none_ e listed] using accepted e listed
    simpa only [accepts, Bool.or_eq_true, decide_eq_true_eq] using verdict

end

section Example

@[reducible] def Host.toy : Host where
  toRuntime := { Runtime.toy with
    ed25519Verify := fun signature _ _ => decide (signature = [1]) || decide (signature = List.replicate 64 0)
    toText := fun v =>
      match v with
      | .num b => some (unitsOf (numberText b))
      | _ => none }
  unb64u s := if s = js "signed" then some (List.replicate 64 0) else none
  toISOString _ := []
  messageOf _ := []

local instance : Host := Host.toy

def exampleSession : Session where
  pinned := .found [7] [] (js "pinned")
  site := .found [7] [] (js "site")
  live := .absent
  anchor := .loaded exampleAnchor
  now := 1893400000000
  pinnedDir := []
  defaultAnchor := []
  tty := false

def exampleOptions : Options := ⟨none, none, none, none, some (some 1893400000000)⟩

def auditText (seq prevHash : String) : JsStr :=
  objectText [("seq", js seq), ("prev_hash", quoted (js prevHash)), ("entry_hash", quoted (js "ab")),
    ("event_type", quoted (js "call")), ("details", js "\x7b\x7d"), ("recorded_at", quoted (js "now"))]

def chainText (chain : List JsStr) : JsStr :=
  objectText [("version", quoted bundleVersion), ("scope", quoted (js "tenant")),
    ("tenant_id", quoted (js "acme")), ("generated_at", quoted (js "2030-01-01T00:00:00Z")),
    ("actor", quoted (js "agent")), ("delegation_chain", js "[" ++ (js ",").intercalate chain ++ js "]"),
    ("decisions", js "[]"), ("audit_entries", js "[" ++ auditText "1" "00" ++ js "," ++ auditText "2" "ab" ++ js "]"),
    ("content_hash", quoted (js "ab")), ("signature", objectText [("sig_b64", quoted (js "signed"))])]

def rootEnvelope : JsStr := documentText rootId (js "null") "2030-01-01T00:00:00Z" (js "[]")

def bareChild : JsStr := documentText childId rootId "2030-01-01T00:00:00Z" (js "[]")

def ledgerReference : JsStr := objectText [("seq", js "1"), ("entry_hash", quoted (js "ab"))]

def exitOn (text : JsStr) : Option Nat :=
  match verifyBundle exampleSession exampleOptions (membersOf text) with
  | .ok result => some (exitCodeFor result)
  | .error _ => none

theorem of_exitOn {text : JsStr} {code : Nat} (run : exitOn text = some code) : ∃ result,
    verifyBundle exampleSession exampleOptions (membersOf text) = .ok result ∧ exitCodeFor result = code := by
  unfold exitOn at run
  split at run
  · rename_i result returned
    exact ⟨result, returned, Option.some.inj run⟩
  · cases run

def hasReference (text : JsStr) : Bool :=
  (itemsOf (valueOf (membersOf text) "delegation_chain")).any isLedgerReferenceEntry

theorem rootEnvelope_run : exitOn (chainText [rootEnvelope]) = some 0 ∧
    hasReference (chainText [rootEnvelope]) = false := by
  decide +kernel

theorem everyCheckRan_rootEnvelope :
    EveryCheckRan exampleSession exampleOptions (membersOf (chainText [rootEnvelope])) := by
  obtain ⟨result, run, zero⟩ := of_exitOn rootEnvelope_run.1
  refine (everyCheckRan_iff run zero).mpr ?_
  rintro ⟨_, e, listed, reference⟩
  have none_ := rootEnvelope_run.2
  rw [hasReference, List.any_eq_false] at none_
  exact none_ e listed reference

theorem bareChild_run : readsObject (chainText [bareChild, ledgerReference]) = true ∧
    exitOn (chainText [bareChild, ledgerReference]) = some 0 ∧
    hasReference (chainText [bareChild, ledgerReference]) = true := by
  decide +kernel

/-- The exit code is 0, and an entry of the chain was not checked. -/
theorem exitCode_hides_reference : ∃ bundle result,
    jsonParse (chainText [bareChild, ledgerReference]) = some (.obj bundle) ∧
    verifyBundle exampleSession exampleOptions bundle = .ok result ∧ exitCodeFor result = 0 ∧
    (∃ e ∈ itemsOf (valueOf bundle "delegation_chain"), isLedgerReferenceEntry e = true) ∧
    ¬ EveryCheckRan exampleSession exampleOptions bundle := by
  obtain ⟨reads, code, reference⟩ := bareChild_run
  obtain ⟨result, run, zero⟩ := of_exitOn code
  rw [hasReference, List.any_eq_true] at reference
  obtain ⟨e, listed, reference⟩ := reference
  refine ⟨membersOf (chainText [bareChild, ledgerReference]), result, jsonParse_membersOf reads, run, zero,
    ⟨e, listed, reference⟩, fun whole => ?_⟩
  obtain ⟨_, _, _, _, each⟩ := whole.envelopes
  rw [(each e listed).1] at reference
  cases reference

end Example

end VaidSuite.TypeScript.EvidenceBundle
