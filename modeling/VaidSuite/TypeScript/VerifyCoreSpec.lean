import VaidSuite.TypeScript.ChainSpec
import VaidSuite.TypeScript.VerifyCore

/-! What the headline of the skill stands for: which boundaries it says can be read, and
how it changes with time. -/
namespace VaidSuite.TypeScript

/-- The documents from the root to the leaf. Without a chain that is the leaf alone. -/
def presentedLineage (parsed : Parsed) : Option (List Members) :=
  if parsed.chain.isEmpty then some [parsed.vaid] else lineageOf parsed.vaid parsed.chain

/-- The headlines that call a credential usable. -/
def Headline.Accepts (headline : Headline) : Prop :=
  headline = .valid ∨ headline = .validWithCaveats

/-- The headline of a genuine envelope in date. -/
def standing (parsed : Parsed) : Headline :=
  if parsed.chain.isEmpty && (parsed.vaid.get "parent_vaid").truthy ||
    isSpecialUseTrustDomain (parsed.vaid.get "trust_domain") then .validWithCaveats else .valid

theorem standing_accepts (parsed : Parsed) : (standing parsed).Accepts := by
  unfold standing
  split
  · exact .inr rfl
  · exact .inl rfl

def authorityOf (parsed : Parsed) : List Finding :=
  if parsed.chain.isEmpty then
    authenticityFinding true ::
      if (parsed.vaid.get "parent_vaid").truthy then [unpresentedParentFinding] else []
  else [chainFinding .attenuated parsed.chain.length]

section Verifier

variable [Runtime]

/-- What the second step of the verifier establishes about a lineage. -/
inductive Vouched (key : Bytes) (parsed : Parsed) (now : Int) : List Members → Prop where
  | alone : parsed.chain = [] → verifyVaidAuthenticity key (.obj parsed.vaid) = .ok true →
      Vouched key parsed now [parsed.vaid]
  | chain {keys : KernelKeyResolver} {line : List Members} : parsed.chain ≠ [] →
      KernelKeyMap.new [key] = .ok keys → (∀ d ∈ parsed.chain, hasShape d = true) →
      Attenuated keys parsed.vaid parsed.chain now line → Vouched key parsed now line

variable {key : Bytes} {parsed : Parsed} {now : Int} {line : List Members}

theorem Vouched.presentedLineage (h : Vouched key parsed now line) :
    presentedLineage parsed = some line := by
  cases h with
  | alone none_ _ => simp [TypeScript.presentedLineage, none_]
  | chain some_ _ _ attenuated => simp [TypeScript.presentedLineage, some_, attenuated.assembled]

theorem of_authorityFindings {findings : List Finding}
    (returned : authorityFindings key parsed now = .ok (findings, true)) :
    ∃ line, Vouched key parsed now line := by
  unfold authorityFindings at returned
  split at returned
  · rename_i none_
    obtain ⟨authentic, verified, returned⟩ := Raising.of_bind_eq_ok returned
    cases authentic with
    | false => cases returned
    | true => exact ⟨_, .alone (List.isEmpty_iff.mp none_) verified⟩
  · rename_i some_
    obtain ⟨verdict, verified, returned⟩ := Raising.of_bind_eq_ok returned
    have attenuated : verdict = .attenuated := by
      cases verdict <;> first | rfl | cases returned
    subst attenuated
    obtain ⟨keys, made, verified⟩ := Raising.of_bind_eq_ok verified
    obtain ⟨bundle, presented, verified⟩ := Raising.of_bind_eq_ok verified
    obtain ⟨rfl, shapes⟩ := PresentedBundle.of_new presented
    obtain ⟨line, attenuated⟩ := of_verifyChainAt verified
    exact ⟨line, .chain (fun empty => some_ (List.isEmpty_iff.mpr empty)) made shapes attenuated⟩

theorem Vouched.authorityFindings (h : Vouched key parsed now line) (later : Int) :
    authorityFindings key parsed later =
      .ok (if line.dropLast.any (fun d => isExpired d later) then
        ([chainFinding .expired parsed.chain.length], false) else (authorityOf parsed, true)) := by
  cases h with
  | alone none_ authentic =>
    simp only [TypeScript.authorityFindings, authorityOf, none_, authentic, Raising.ok_bind]
    rfl
  | chain some_ made shapes attenuated =>
    have nonempty : parsed.chain.isEmpty = false := by simp [some_]
    simp only [TypeScript.authorityFindings, authorityOf, nonempty, chainResult, made,
      PresentedBundle.new_ok shapes, attenuated.verifyChainAt later, Raising.ok_bind]
    cases line.dropLast.any (fun d => isExpired d later) <;> rfl

theorem Vouched.unlapsed (h : Vouched key parsed now line) :
    line.dropLast.any (fun d => isExpired d now) = false := by
  cases h with
  | alone none_ authentic => rfl
  | chain some_ made shapes attenuated => simpa using attenuated.unlapsed

/-! ### The headline over time -/

def headlineAt (parsed : Parsed) (line : List Members) (now : Int) : Headline :=
  if line.dropLast.any (fun d => isExpired d now) then .rejected
  else if isExpired parsed.vaid now then .expired else standing parsed

omit [Runtime] in
theorem headline_of_refusal {key refusal : Finding} (passes : key.state = .pass)
    (named : key.id = "key") (fails : refusal.state = .fail)
    (other : refusal.id = "authenticity" ∨ refusal.id = "attenuation") (parsed : Parsed) :
    (assemble [key, refusal] parsed).headline = .rejected := by
  rcases other with id | id <;>
    simp [assemble, headlineOf, passes, named, fails, id, revocationFinding]

theorem authorityFindings_refusal {findings : List Finding}
    (returned : authorityFindings key parsed now = .ok (findings, false)) :
    ∃ refusal, findings = [refusal] ∧ refusal.state = .fail ∧
      (refusal.id = "authenticity" ∨ refusal.id = "attenuation") := by
  unfold authorityFindings at returned
  split at returned
  · obtain ⟨authentic, _, returned⟩ := Raising.of_bind_eq_ok returned
    cases authentic with
    | true => cases returned
    | false =>
      cases returned
      exact ⟨_, rfl, rfl, .inl rfl⟩
  · obtain ⟨verdict, _, returned⟩ := Raising.of_bind_eq_ok returned
    cases verdict with
    | attenuated => cases returned
    | _ =>
      cases returned
      exact ⟨_, rfl, rfl, .inr rfl⟩

theorem headline_of_findings (key : Finding) {expiry issuer : Finding} (passes : key.state = .pass)
    (expiryNamed : expiry.id = "expiry")
    (expiryState : expiry.state = if isExpired parsed.vaid now then .fail else .pass)
    (issuerState : issuer.state =
      if isSpecialUseTrustDomain (parsed.vaid.get "trust_domain") then .caveat else .pass) :
    (assemble (key :: authorityOf parsed ++ [expiry, issuer, revocationFinding]) parsed).headline =
      if isExpired parsed.vaid now then .expired else standing parsed := by
  have revocation : (key :: authorityOf parsed ++ [expiry, issuer, revocationFinding]).any
      (fun f => f.id == "revocation") = true := by
    simp [revocationFinding]
  simp only [assemble, revocation, if_true]
  clear revocation
  obtain ⟨_, _, keyState, _⟩ := key
  obtain ⟨_, _, _, _⟩ := expiry
  obtain ⟨_, _, _, _⟩ := issuer
  dsimp only at passes expiryNamed expiryState issuerState
  subst passes expiryNamed expiryState issuerState
  unfold authorityOf standing
  cases parsed.chain.isEmpty <;> cases (parsed.vaid.get "parent_vaid").truthy <;>
    cases isSpecialUseTrustDomain (parsed.vaid.get "trust_domain") <;>
    cases isExpired parsed.vaid now <;> rfl

theorem expiryFinding_later {finding : Finding} (returned : expiryFinding parsed.vaid now = .ok finding)
    (later : Int) : ∃ expiry, expiryFinding parsed.vaid later = .ok expiry ∧ expiry.id = "expiry" ∧
      expiry.state = if isExpired parsed.vaid later then .fail else .pass := by
  obtain ⟨text, templated, _⟩ := Raising.of_bind_eq_ok returned
  rw [expiryFinding, templated, Raising.ok_bind]
  cases isExpired parsed.vaid later
  · exact ⟨_, rfl, rfl, rfl⟩
  · exact ⟨_, rfl, rfl, rfl⟩

theorem issuerFinding_state {finding : Finding} (returned : issuerFinding parsed.vaid = .ok finding) :
    finding.state =
      if isSpecialUseTrustDomain (parsed.vaid.get "trust_domain") then .caveat else .pass := by
  obtain ⟨text, _, returned⟩ := Raising.of_bind_eq_ok returned
  cases special : isSpecialUseTrustDomain (parsed.vaid.get "trust_domain") with
  | false =>
    simp only [special] at returned
    cases returned
    rfl
  | true =>
    simp only [special] at returned
    cases returned
    rfl

/-- An envelope that was not rejected was vouched for, and its headline at any instant is
known. -/
theorem of_verifyParsed {anchor : Anchor} {result : VerifyResult}
    (returned : verifyParsed parsed anchor now = .ok result) (genuine : result.headline ≠ .rejected) :
    ∃ key line, Vouched key parsed now line ∧ ∀ later, ∃ found,
      verifyParsed parsed anchor later = .ok found ∧ found.headline = headlineAt parsed line later := by
  unfold verifyParsed at returned
  dsimp only at returned
  split at returned
  · cases returned
    exact absurd rfl genuine
  · rename_i entry accepted
    obtain ⟨text, origin, returned⟩ := Raising.of_bind_eq_ok returned
    obtain ⟨⟨authority, goOn⟩, found, returned⟩ := Raising.of_bind_eq_ok returned
    cases goOn with
    | false =>
      obtain ⟨refusal, rfl, fails, other⟩ := authorityFindings_refusal found
      cases returned
      exact absurd (headline_of_refusal rfl rfl fails other parsed) genuine
    | true =>
      obtain ⟨expiry, expires, returned⟩ := Raising.of_bind_eq_ok returned
      obtain ⟨issuer, issues, returned⟩ := Raising.of_bind_eq_ok returned
      obtain ⟨line, vouched⟩ := of_authorityFindings found
      refine ⟨entry.key, line, vouched, fun later => ?_⟩
      obtain ⟨laterExpiry, laterExpires, named, state⟩ := expiryFinding_later expires later
      unfold verifyParsed headlineAt
      simp only [accepted, origin, vouched.authorityFindings later, laterExpires, issues,
        Raising.ok_bind]
      cases line.dropLast.any (fun d => isExpired d later) with
      | true => exact ⟨_, rfl, headline_of_refusal rfl rfl rfl (.inr rfl) parsed⟩
      | false => exact ⟨_, rfl, headline_of_findings _ rfl named state (issuerFinding_state issues)⟩

theorem of_verifyEnvelope {input : JsStr} {anchor : Anchor} {result : VerifyResult}
    (returned : verifyEnvelope input anchor now = .ok result)
    (genuine : result.headline ≠ .rejected) (read : result.headline ≠ .malformed) :
    ∃ parsed key line, parseEnvelope input = .ok parsed ∧ Vouched key parsed now line ∧
      ∀ later, ∃ found, verifyEnvelope input anchor later = .ok found ∧
        found.headline = headlineAt parsed line later := by
  unfold verifyEnvelope at returned ⊢
  cases parse : parseEnvelope input with
  | error message =>
    rw [parse] at returned
    cases returned
    exact absurd rfl read
  | ok parsed =>
    rw [parse] at returned
    obtain ⟨key, line, vouched, found⟩ := of_verifyParsed returned genuine
    exact ⟨parsed, key, line, rfl, vouched, found⟩

/-- What an accepted headline needs: a key of the anchor under which the documents are
vouched for, a leaf in date, and findings that can be shown. -/
structure Usable (anchor : Anchor) (parsed : Parsed) (now : Int) (entry : AnchorEntry)
    (line : List Members) : Prop where
  anchored : (parsed.vaid.get "kernel_key_thumbprint").asStr.bind (fun tp => anchor.lookup tp) =
    some entry
  vouched : Vouched entry.key parsed now line
  inDate : isExpired parsed.vaid now = false
  origin : ∃ text, provenance entry.jwk = .ok text
  expiresAt : ∃ text, template (parsed.vaid.get "expires_at") = .ok text
  trustDomain : ∃ text, template (parsed.vaid.get "trust_domain") = .ok text

theorem usable_of_accepted {anchor : Anchor} {result : VerifyResult}
    (returned : verifyParsed parsed anchor now = .ok result) (accepted : result.headline.Accepts) :
    ∃ entry line, Usable anchor parsed now entry line := by
  have genuine : result.headline ≠ .rejected := by
    rcases accepted with h | h <;> rw [h] <;> decide
  unfold verifyParsed at returned
  dsimp only at returned
  split at returned
  · cases returned
    exact absurd rfl genuine
  · rename_i entry anchored
    obtain ⟨origin, shown, returned⟩ := Raising.of_bind_eq_ok returned
    obtain ⟨⟨authority, goOn⟩, found, returned⟩ := Raising.of_bind_eq_ok returned
    cases goOn with
    | false =>
      obtain ⟨refusal, rfl, fails, other⟩ := authorityFindings_refusal found
      cases returned
      exact absurd (headline_of_refusal rfl rfl fails other parsed) genuine
    | true =>
      obtain ⟨expiry, expires, returned⟩ := Raising.of_bind_eq_ok returned
      obtain ⟨issuer, issues, returned⟩ := Raising.of_bind_eq_ok returned
      obtain ⟨line, vouched⟩ := of_authorityFindings found
      rw [vouched.authorityFindings now, vouched.unlapsed] at found
      obtain ⟨_, again, named, state⟩ := expiryFinding_later expires now
      obtain ⟨expiresAt, readExpiry, _⟩ := Raising.of_bind_eq_ok expires
      obtain ⟨domain, readDomain, _⟩ := Raising.of_bind_eq_ok issues
      cases expires.symm.trans again
      cases found
      cases returned
      have headline := headline_of_findings ⟨"key", "Signing key", .pass, origin⟩ rfl named
        state (issuerFinding_state issues)
      refine ⟨entry, line, anchored, vouched, ?_, ⟨_, shown⟩, ⟨_, readExpiry⟩, ⟨_, readDomain⟩⟩
      cases lapsed : isExpired parsed.vaid now with
      | false => rfl
      | true =>
        rw [lapsed, if_pos rfl] at headline
        rw [headline] at accepted
        rcases accepted with h | h <;> cases h

theorem Usable.accepted {anchor : Anchor} {entry : AnchorEntry} (h : Usable anchor parsed now entry line) :
    ∃ result, verifyParsed parsed anchor now = .ok result ∧ result.headline.Accepts := by
  obtain ⟨origin, shown⟩ := h.origin
  obtain ⟨expiresAt, readExpiry⟩ := h.expiresAt
  obtain ⟨domain, readDomain⟩ := h.trustDomain
  have expires : ∃ finding, expiryFinding parsed.vaid now = .ok finding := by
    rw [expiryFinding, readExpiry, Raising.ok_bind, h.inDate]
    exact ⟨_, rfl⟩
  have issues : ∃ finding, issuerFinding parsed.vaid = .ok finding := by
    rw [issuerFinding, readDomain, Raising.ok_bind]
    cases isSpecialUseTrustDomain (parsed.vaid.get "trust_domain") <;> exact ⟨_, rfl⟩
  obtain ⟨issuer, issues⟩ := issues
  obtain ⟨_, expires⟩ := expires
  obtain ⟨expiry, expires, named, state⟩ := expiryFinding_later expires now
  have headline := headline_of_findings ⟨"key", "Signing key", .pass, origin⟩ rfl named
    state (issuerFinding_state issues)
  refine ⟨assemble (⟨"key", "Signing key", .pass, origin⟩ ::
    authorityOf parsed ++ [expiry, issuer, revocationFinding]) parsed, ?_, ?_⟩
  · simp only [verifyParsed, h.anchored, shown, h.vouched.authorityFindings now, h.vouched.unlapsed,
      expires, issues, Raising.ok_bind]
    rfl
  · rw [headline, h.inDate]
    exact standing_accepts parsed

/-- An accepted headline says that every boundary of the lineage can be read exactly when
the leaf's own can, or the leaf was shown with an ancestor. -/
theorem accepted_evaluable_iff {input : JsStr} {anchor : Anchor} {result : VerifyResult}
    (returned : verifyEnvelope input anchor now = .ok result) (accepted : result.headline.Accepts) :
    ∃ parsed line, parseEnvelope input = .ok parsed ∧ presentedLineage parsed = some line ∧
      ((∀ d ∈ line, Evaluable d) ↔
        Evaluable parsed.vaid ∨ parsed.chain ≠ [] ∧ parentOf parsed.vaid ≠ none) := by
  obtain ⟨parsed, key, line, parse, vouched, _⟩ := of_verifyEnvelope returned
    (by rcases accepted with h | h <;> rw [h] <;> decide)
    (by rcases accepted with h | h <;> rw [h] <;> decide)
  refine ⟨parsed, line, parse, vouched.presentedLineage, ?_⟩
  cases vouched with
  | alone none_ _ => simp [none_]
  | chain some_ _ _ attenuated =>
    rcases lineageOf_cases attenuated.assembled with ⟨root, rfl⟩ | ⟨parent, ancestors, child, rfl⟩
    · simp [root]
    · have all := evaluable_of_verifyHops attenuated.hops (by simp)
      exact ⟨fun _ => .inr ⟨some_, child⟩, fun _ => all⟩

theorem isExpired_mono {d : Members} {later : Int} (le : now ≤ later)
    (expired : isExpired d now = true) : isExpired d later = true := by
  unfold isExpired at expired ⊢
  cases read : parseRfc3339 (d.get "expires_at") with
  | none => rfl
  | some expires =>
    simp only [read, decide_eq_true_eq] at expired ⊢
    exact lt_of_lt_of_le expired le

/-- What time alone may do to the headline of a genuine credential. -/
def Headline.Survives (before after : Headline) : Prop :=
  (after.Accepts ∨ after = .expired) ∧ (before = .expired → after = .expired)

/-- A genuine credential survives exactly as long as no ancestor that was shown expires. -/
theorem genuine_survives_iff {input : JsStr} {anchor : Anchor} {result : VerifyResult}
    (returned : verifyEnvelope input anchor now = .ok result)
    (genuine : result.headline.Accepts ∨ result.headline = .expired) {later : Int}
    (le : now ≤ later) :
    ∃ parsed line found, parseEnvelope input = .ok parsed ∧ presentedLineage parsed = some line ∧
      verifyEnvelope input anchor later = .ok found ∧
        (result.headline.Survives found.headline ↔
          ∀ ancestor ∈ line.dropLast, isExpired ancestor later = false) := by
  obtain ⟨parsed, key, line, parse, vouched, answers⟩ := of_verifyEnvelope returned
    (by rcases genuine with (h | h) | h <;> rw [h] <;> decide)
    (by rcases genuine with (h | h) | h <;> rw [h] <;> decide)
  obtain ⟨same, again, before⟩ := answers now
  cases returned.symm.trans again
  obtain ⟨found, runs, after⟩ := answers later
  refine ⟨parsed, line, found, parse, vouched.presentedLineage, runs, ?_⟩
  cases lapsed : line.dropLast.any (fun d => isExpired d later) with
  | true =>
    obtain ⟨ancestor, member, expired⟩ := List.any_eq_true.mp lapsed
    have rejected : found.headline = .rejected := by rw [after, headlineAt, lapsed, if_pos rfl]
    constructor
    · rintro ⟨kept, _⟩
      rw [rejected] at kept
      rcases kept with (h | h) | h <;> cases h
    · intro unlapsed
      rw [unlapsed ancestor member] at expired
      cases expired
  | false =>
    have unlapsed : ∀ ancestor ∈ line.dropLast, isExpired ancestor later = false := by
      simpa using lapsed
    refine iff_of_true ⟨?_, fun wasExpired => ?_⟩ unlapsed
    · rw [after, headlineAt, lapsed, if_neg Bool.false_ne_true]
      split
      · exact .inr rfl
      · exact .inl (standing_accepts parsed)
    · have leafExpired : isExpired parsed.vaid now = true := by
        by_contra inDate
        rw [before, headlineAt, if_neg inDate] at wasExpired
        split at wasExpired
        · cases wasExpired
        · rcases standing_accepts parsed with h | h <;> rw [h] at wasExpired <;> cases wasExpired
      rw [after, headlineAt, lapsed, if_neg Bool.false_ne_true, isExpired_mono le leafExpired,
        if_pos rfl]

end Verifier

section Example

/-- A toy signature scheme, and the reading of three dates. -/
@[reducible] def Runtime.toy : Runtime where
  sha256 _ := [0xab]
  canonicalize _ := some []
  ed25519Verify signature _ _ := decide (signature = [1])
  dateParse s :=
    if s = js "2030-01-01T00:00:00Z" then some 1893456000000
    else if s = js "2030-01-02T00:00:00Z" then some 1893542400000 else none
  toText _ := none
  stringify _ := []
  syntaxError _ := []
  toNumber _ := none
  bytesOfArrayLike _ := none

local instance : Runtime := Runtime.toy

def quoted (s : JsStr) : JsStr := js "\"" ++ s ++ js "\""

def objectText (members : List (String × JsStr)) : JsStr :=
  js "\x7b" ++ (js ",").intercalate (members.map (fun m => quoted (js m.1) ++ js ":" ++ m.2)) ++
    js "\x7d"

def documentText (vaidId parentVaid : JsStr) (expiresAt : String) (scopeBoundary : JsStr) : JsStr :=
  objectText [("sig_version", js "4"), ("vaid_id", vaidId), ("agent_id", vaidId),
    ("agent_class", quoted []), ("version", quoted []), ("tenant_id", quoted []),
    ("issued_at", quoted (js "2029-12-31T00:00:00Z")), ("expires_at", quoted (js expiresAt)),
    ("public_key_der", js "[]"), ("kernel_signature", js "[1]"), ("parent_vaid", parentVaid),
    ("scope_boundary", scopeBoundary), ("lineage_hash", quoted (js "ab")),
    ("capability_set", js "[]"), ("trust_domain", quoted (js "vaid.acme.com")),
    ("kernel_key_thumbprint", quoted (thumbprintUriPrefix ++ js "qw"))]

def rootId : JsStr := quoted (js "00000000-0000-4000-8000-000000000001")
def childId : JsStr := quoted (js "00000000-0000-4000-8000-000000000002")

def exampleAnchor : Anchor :=
  [(thumbprintUriPrefix ++ js "qw", ⟨[], []⟩)]

/-- A root that is bounded in a way that this verifier does not know. -/
def futureRoot : JsStr := documentText rootId (js "null") "2030-01-01T00:00:00Z"
  (js "[" ++ objectText [("kind", quoted (js "region")), ("value", quoted (js "eu"))] ++ js "]")

def headlineOn (input : JsStr) (now : Int) : Option Headline :=
  match verifyEnvelope input exampleAnchor now with
  | .ok result => some result.headline
  | .error _ => none

def leafEvaluable (input : JsStr) : Option Bool :=
  match parseEnvelope input with
  | .ok parsed => (boundaryIsEvaluable (parsed.vaid.get "scope_boundary")).toOption
  | .error _ => none

theorem of_headlineOn {input : JsStr} {now : Int} {headline : Headline}
    (found : headlineOn input now = some headline) :
    ∃ result, verifyEnvelope input exampleAnchor now = .ok result ∧ result.headline = headline := by
  unfold headlineOn at found
  split at found
  · rename_i result returned
    exact ⟨result, returned, Option.some.inj found⟩
  · cases found

theorem futureRoot_read : headlineOn futureRoot 1893400000000 = some .valid ∧
    leafEvaluable futureRoot = some false := by
  decide +kernel

theorem accepted_evaluable_iff_futureRoot : ∃ parsed line, parseEnvelope futureRoot = .ok parsed ∧
    presentedLineage parsed = some line ∧ ((∀ d ∈ line, Evaluable d) ↔
      Evaluable parsed.vaid ∨ parsed.chain ≠ [] ∧ parentOf parsed.vaid ≠ none) := by
  obtain ⟨result, returned, headline⟩ := of_headlineOn futureRoot_read.1
  exact accepted_evaluable_iff returned (.inl headline)

/-- The headline is `valid`, and the boundary of the leaf cannot be read. -/
theorem futureRoot_accepted : headlineOn futureRoot 1893400000000 = some .valid ∧
    ∀ parsed line, parseEnvelope futureRoot = .ok parsed → presentedLineage parsed = some line →
      ¬ ∀ d ∈ line, Evaluable d := by
  refine ⟨futureRoot_read.1, fun parsed line parse assembled evaluable => ?_⟩
  have leaf : Evaluable parsed.vaid := by
    unfold presentedLineage at assembled
    split at assembled
    · cases assembled
      exact evaluable _ List.mem_cons_self
    · rcases lineageOf_cases assembled with ⟨_, rfl⟩ | ⟨_, _, _, rfl⟩
      · exact evaluable _ List.mem_cons_self
      · exact evaluable _ (by simp)
  have unread := futureRoot_read.2
  rw [leafEvaluable, parse] at unread
  dsimp only at unread
  rw [leaf] at unread
  cases unread

/-- A child that expires a day before its parent. -/
def delegation : JsStr := objectText [("v", js "1"),
  ("vaid", documentText childId rootId "2030-01-01T00:00:00Z" (js "[]")),
  ("chain", js "[" ++ documentText rootId (js "null") "2030-01-02T00:00:00Z" (js "[]") ++ js "]")]

theorem delegation_headlines : headlineOn delegation 1893400000000 = some .valid ∧
    headlineOn delegation 1893500000000 = some .expired ∧
    headlineOn delegation 1893600000000 = some .rejected := by
  decide +kernel

theorem genuine_survives_iff_delegation : ∃ before parsed line found,
    verifyEnvelope delegation exampleAnchor 1893400000000 = .ok before ∧
    parseEnvelope delegation = .ok parsed ∧ presentedLineage parsed = some line ∧
      verifyEnvelope delegation exampleAnchor 1893500000000 = .ok found ∧
        (before.headline.Survives found.headline ↔
          ∀ ancestor ∈ line.dropLast, isExpired ancestor 1893500000000 = false) := by
  obtain ⟨before, returned, headline⟩ := of_headlineOn delegation_headlines.1
  obtain ⟨parsed, line, found, facts⟩ :=
    genuine_survives_iff returned (.inl (.inl headline)) (show 1893400000000 ≤ 1893500000000 by decide)
  exact ⟨before, parsed, line, found, returned, facts⟩

/-- Valid, then expired, and then no longer genuine. -/
theorem delegation_rejected : ∃ found,
    headlineOn delegation 1893400000000 = some .valid ∧
    headlineOn delegation 1893500000000 = some .expired ∧
    verifyEnvelope delegation exampleAnchor 1893600000000 = .ok found ∧
    ¬ Headline.expired.Survives found.headline ∧ ¬ Headline.valid.Survives found.headline := by
  obtain ⟨found, returned, headline⟩ := of_headlineOn delegation_headlines.2.2
  have rejected : ∀ before : Headline, ¬ before.Survives found.headline := by
    rintro before ⟨kept, _⟩
    rw [headline] at kept
    rcases kept with (h | h) | h <;> cases h
  exact ⟨found, delegation_headlines.1, delegation_headlines.2.1, returned, rejected _, rejected _⟩

end Example

end VaidSuite.TypeScript
