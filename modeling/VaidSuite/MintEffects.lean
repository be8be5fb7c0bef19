import VaidSuite.MintChain
import VaidSuite.MintRuns

/-! What a call of the mint leaves behind, by how it ends: the nonces, the lineage
store and the audit log after a success, after a refusal, and after a failure. -/
namespace VaidSuite.MintEffects

open MintService (Call Delegable ProvesPossession)
open MintRuns (Op)
open Fallible (Checks RefusesAt)

section Calls

variable [Crypto] [Chrono] {L R A : Type} [LineageStore L]

/-- The checks on a proof that come before its signature. -/
structure Usable (s : MintService L R A) (now : Instant) (presented : Option MintPop)
    (pop : MintPop) : Prop where
  present : presented = some pop
  fresh : ((now.secondsSince pop.issuedAt).natAbs : Int) ≤ mintPopFreshnessSecs
  unspent : pop.nonce ∉ s.consumedPopNonces

def Signs (seed : VaidSeed) (key : Bytes) (pop : MintPop) : Prop :=
  verifySignedPayload (seed.popPayload key pop.nonce pop.issuedAt).toJson key pop.signature = true

omit [Crypto] [Chrono] [LineageStore L] in
theorem spendNonce_refuses {s : MintService L R A} {nonce : String}
    (spent : nonce ∈ s.consumedPopNonces) :
    (MintService.spendNonce nonce : Call L R A PUnit).RefusesAt s :=
  ⟨_, (Fallible.run_atomically _ s).trans (if_pos spent)⟩

omit [LineageStore L] in
theorem verifyPopAtMint_refuses {s : MintService L R A} {now : Instant} {presented : Option MintPop}
    (unusable : ∀ pop, ¬ Usable s now presented pop) (seed : VaidSeed) (key : Bytes) :
    (MintService.verifyPopAtMint now seed key presented : Call L R A PUnit).RefusesAt s := by
  unfold MintService.verifyPopAtMint
  cases presented with
  | none => exact (Fallible.refusesAt_fail _ s).bind _
  | some pop =>
    refine Fallible.refusesAt_bind_of_ok (a := pop) rfl ?_
    by_cases stale : mintPopFreshnessSecs < ((now.secondsSince pop.issuedAt).natAbs : Int)
    · refine RefusesAt.bind ?_ _
      exact (Fallible.checks_refuseIf _ _).refuses
        (fun u ran => ((Fallible.run_refuseIf_iff _ _ _ _ _).mp ran).1 stale)
    · refine Fallible.refusesAt_bind_of_ok (a := ⟨⟩)
        ((Fallible.run_refuseIf_iff _ _ _ _ _).mpr ⟨stale, rfl⟩) (RefusesAt.bind ?_ _)
      refine spendNonce_refuses ?_
      by_contra unspent
      exact unusable pop ⟨rfl, not_lt.mp stale, unspent⟩

omit [LineageStore L] in
theorem verifyPopAtMint_unsigned {s : MintService L R A} {now : Instant}
    {presented : Option MintPop} {pop : MintPop} (usable : Usable s now presented pop)
    {seed : VaidSeed} {key : Bytes} (unsigned : ¬ Signs seed key pop) :
    ∃ e, (MintService.verifyPopAtMint now seed key presented : Call L R A PUnit).run s =
      (.error e, s.afterPop pop) := by
  obtain ⟨rfl, fresh, unspent⟩ := usable
  unfold MintService.verifyPopAtMint
  rw [Fallible.run_bind_of_ok (a := pop) (t := s) rfl, Fallible.run_bind_of_ok (a := ⟨⟩) (t := s)
      ((Fallible.run_refuseIf_iff _ _ _ _ _).mpr ⟨not_lt.mpr fresh, rfl⟩),
    Fallible.run_bind_of_ok (a := ⟨⟩) (t := s.afterPop pop)
      ((MintService.run_spendNonce_iff _ _ _ _).mpr ⟨unspent, rfl⟩)]
  refine (Fallible.checks_refuseIf _ _).refuses (fun u ran => ?_)
  exact ((Fallible.run_refuseIf_iff _ _ _ _ _).mp ran).1 (by simpa [Signs] using unsigned)

omit [LineageStore L] in
theorem verifyPopAtMint_signed {s : MintService L R A} {now : Instant}
    {presented : Option MintPop} {pop : MintPop} (usable : Usable s now presented pop)
    {seed : VaidSeed} {key : Bytes} (signed : Signs seed key pop) :
    (MintService.verifyPopAtMint now seed key presented : Call L R A PUnit).run s =
      (.ok ⟨⟩, s.afterPop pop) :=
  (MintService.run_verifyPopAtMint_iff _ _ _ _ _ _ _).mpr
    ⟨pop, usable.present, ⟨usable.fresh, signed⟩, usable.unspent, rfl⟩

omit [Crypto] in
theorem checks_authorizeChild (now : Instant) (seed : VaidSeed) (parent : Vaid) :
    (MintService.authorizeChild now seed parent : Call L R A PUnit).Checks := by
  have depth : (MintService.parentDepth parent : Call L R A Nat).Checks := by
    refine (Fallible.checks_read _).bind (fun assembled => ?_)
    cases assembled with
    | complete chain => exact Fallible.checks_pure _
    | incomplete => exact Fallible.checks_fail _
  exact depth.bind (fun _ => (Fallible.checks_read _).bind (fun _ =>
    (Fallible.checks_refuseIf _ _).bind (fun _ => (Fallible.checks_refuseIf _ _).bind (fun _ =>
    (Fallible.checks_refuseIf _ _).bind (fun _ => (Fallible.checks_refuseIf _ _).bind (fun _ =>
    (Fallible.checks_refuseIf _ _).bind (fun _ => Fallible.checks_refuseIf _ _)))))))

/-- The gate lets a root through, and a parent a delegation. -/
def Permitted (s : MintService L R A) : Op → Prop
  | .mintRoot env request => env.authz request.seed = .ok ()
  | .mintChild env request parent =>
    (∃ p, parent = some p ∧ Delegable s env.parentNow request.seed p) ∧
      ∃ key, request.seed.publicKeyDer = some key

/-- Every check passes that comes before the signature of the proof. A root without
a key of its own needs no proof. -/
structure Cleared (s : MintService L R A) (op : Op) : Prop where
  permitted : Permitted s op
  usable : ∀ key, op.request.seed.publicKeyDer = some key →
    ∃ pop, Usable s op.env.popNow op.request.pop pop

/-- The call stops at the signature of the proof. -/
structure SignatureRefused (s : MintService L R A) (op : Op) (key : Bytes) (pop : MintPop) :
    Prop where
  permitted : Permitted s op
  registered : op.request.seed.publicKeyDer = some key
  usable : Usable s op.env.popNow op.request.pop pop
  unsigned : ¬ Signs op.request.seed key pop

/-- The expiry a delegation must stay within. -/
def ceiling : Op → Option String
  | .mintRoot _ _ => none
  | .mintChild _ _ parent => parent.map Vaid.expiresAtAsPresented

/-- The call stops at the lineage write. -/
structure LineageRefused (s : MintService L R A) (op : Op) (e : LineageWriteError) : Prop where
  cleared : Cleared s op
  signed : ∀ key pop, op.request.seed.publicKeyDer = some key → op.request.pop = some pop →
    Signs op.request.seed key pop
  expiry : ∃ expires, s.issuer.expiresAt op.env.issue (ceiling op) = .ok expires
  refused : (LineageStore.tryRecord s.issuer.lineage op.freshId
    op.request.seed.parentVaid).1 = .error e

theorem issueVaidWithKey_refused {s : MintService L R A} {env : MintEnv}
    {request : MintVaidRequest} {notAfter : Option String} {expires : Instant}
    (expiry : s.issuer.expiresAt env.issue notAfter = .ok expires) {e : LineageWriteError}
    (refused : (LineageStore.tryRecord s.issuer.lineage ⟨env.issue.agentId.uuid⟩
      request.seed.parentVaid).1 = .error e) (key : Bytes) :
    ∃ e', (MintService.issueVaidWithKey env.issue request.seed.attributes key notAfter :
      Call L R A Vaid).run s = (.error e', s.afterIssue env request) := by
  have refused' : (LineageStore.tryRecord s.issuer.lineage
      (s.issuer.signedVaid env.issue request.seed.attributes key expires).vaidId
      request.seed.attributes.parentVaid).1 = .error e := refused
  refine ⟨.lineage (toString e), ?_⟩
  rw [MintService.issueVaidWithKey, Fallible.run_atomically]
  simp only [ReferenceIssuer.issueVaidWithKey, ReferenceIssuer.buildAndSignVaid, expiry, refused']
  rfl

variable [AuditSink A]

theorem refuses_of_not_cleared {s : MintService L R A} {op : Op} (stopped : ¬ Cleared s op) :
    (op.program : Call L R A MintVaidResponse).RefusesAt s := by
  cases op with
  | mintRoot env request =>
    show (MintService.mintRoot env request).RefusesAt s
    unfold MintService.mintRoot
    dsimp only
    cases permitted : env.authz request.seed with
    | error e => exact (Fallible.refusesAt_fail e s).bind _
    | ok u =>
      refine Fallible.refusesAt_bind_of_ok (a := ()) rfl (RefusesAt.bind ?_ _)
      unfold MintService.issueRoot
      cases registered : request.seed.publicKeyDer with
      | none =>
        refine absurd ⟨permitted, fun key hk => ?_⟩ stopped
        exact absurd (registered.symm.trans hk) (by simp)
      | some key =>
        refine (verifyPopAtMint_refuses (fun pop usable => ?_) _ _).bind _
        exact stopped ⟨permitted, fun _ _ => ⟨pop, usable⟩⟩
  | mintChild env request parent =>
    show (MintService.mintChild env request parent).RefusesAt s
    unfold MintService.mintChild
    cases parent with
    | none => exact (Fallible.refusesAt_fail _ s).bind _
    | some p =>
      refine Fallible.refusesAt_bind_of_ok (a := p) rfl ?_
      by_cases delegable : Delegable s env.parentNow request.seed p
      · refine Fallible.refusesAt_bind_of_ok (a := ⟨⟩)
          ((MintService.run_authorizeChild_iff _ _ _ _ _ _).mpr ⟨delegable, rfl⟩)
          (RefusesAt.bind ?_ _)
        unfold MintService.issueChild
        cases registered : request.seed.publicKeyDer with
        | none => exact (Fallible.refusesAt_fail _ s).bind _
        | some key =>
          refine Fallible.refusesAt_bind_of_ok (a := key) rfl
            ((verifyPopAtMint_refuses (fun pop usable => ?_) _ _).bind _)
          exact stopped ⟨⟨⟨p, rfl, delegable⟩, key, registered⟩, fun _ _ => ⟨pop, usable⟩⟩
      · refine RefusesAt.bind ((checks_authorizeChild _ _ _).refuses (fun u ran => ?_)) _
        exact delegable ((MintService.run_authorizeChild_iff _ _ _ _ _ _).mp ran).1

theorem run_of_signatureRefused {s : MintService L R A} {op : Op} {key : Bytes} {pop : MintPop}
    (h : SignatureRefused s op key pop) : ∃ e, op.run s = (.error e, s.afterPop pop) := by
  obtain ⟨permitted, registered, usable, unsigned⟩ := h
  obtain ⟨e, ran⟩ := verifyPopAtMint_unsigned usable unsigned
  refine ⟨e, ?_⟩
  cases op with
  | mintRoot env request =>
    show (MintService.mintRoot env request).run s = _
    have keyed : request.seed.publicKeyDer = some key := registered
    have allowed : env.authz request.seed = .ok () := permitted
    unfold MintService.mintRoot MintService.issueRoot
    dsimp only
    rw [Fallible.run_bind_of_ok (a := ()) (t := s)
      ((Fallible.run_ofExcept_iff _ _ _ _).mpr ⟨allowed, rfl⟩), keyed]
    exact Fallible.run_bind_of_error (Fallible.run_bind_of_error ran _) _
  | mintChild env request parent =>
    show (MintService.mintChild env request parent).run s = _
    obtain ⟨⟨p, rfl, delegable⟩, -⟩ := permitted
    have keyed : request.seed.publicKeyDer = some key := registered
    unfold MintService.mintChild MintService.issueChild
    rw [Fallible.run_bind_of_ok (a := p) (t := s) rfl, Fallible.run_bind_of_ok (a := ⟨⟩) (t := s)
      ((MintService.run_authorizeChild_iff _ _ _ _ _ _).mpr ⟨delegable, rfl⟩), keyed]
    refine Fallible.run_bind_of_error ?_ _
    rw [Fallible.run_bind_of_ok (a := key) (t := s) rfl]
    exact Fallible.run_bind_of_error ran _

theorem run_of_lineageRefused {s : MintService L R A} {op : Op} {e : LineageWriteError}
    (h : LineageRefused s op e) :
    ∃ (e' : MintError) (t : MintService L R A),
      op.run s = (.error e', t.afterIssue op.env op.request) ∧
        t.issuer = s.issuer ∧ t.audit = s.audit := by
  obtain ⟨⟨permitted, usable⟩, signed, ⟨expires, expiry⟩, refused⟩ := h
  cases op with
  | mintRoot env request =>
    have allowed : env.authz request.seed = .ok () := permitted
    show ∃ (e' : MintError) (t : MintService L R A),
      (MintService.mintRoot env request).run s = (.error e', t.afterIssue env request) ∧ _
    unfold MintService.mintRoot MintService.issueRoot
    dsimp only
    rw [Fallible.run_bind_of_ok (a := ()) (t := s)
      ((Fallible.run_ofExcept_iff _ _ _ _).mpr ⟨allowed, rfl⟩)]
    cases registered : request.seed.publicKeyDer with
    | none =>
      obtain ⟨e', ran⟩ := issueVaidWithKey_refused expiry refused (Crypto.publicKey env.issue.agentKey)
      exact ⟨e', s, Fallible.run_bind_of_error ran _, rfl, rfl⟩
    | some key =>
      obtain ⟨pop, usable⟩ := usable key registered
      have spent := verifyPopAtMint_signed usable (signed key pop registered usable.present)
      obtain ⟨e', ran⟩ := issueVaidWithKey_refused (s := s.afterPop pop) expiry refused key
      refine ⟨e', s.afterPop pop, Fallible.run_bind_of_error ?_ _, rfl, rfl⟩
      exact (Fallible.run_bind_of_ok spent _).trans ran
  | mintChild env request parent =>
    obtain ⟨⟨p, rfl, delegable⟩, key, registered⟩ := permitted
    obtain ⟨pop, usable⟩ := usable key registered
    have spent := verifyPopAtMint_signed usable (signed key pop registered usable.present)
    obtain ⟨e', ran⟩ := issueVaidWithKey_refused (s := s.afterPop pop) expiry refused key
    refine ⟨e', s.afterPop pop, ?_, rfl, rfl⟩
    show (MintService.mintChild env request (some p)).run s = _
    unfold MintService.mintChild MintService.issueChild
    rw [Fallible.run_bind_of_ok (a := p) (t := s) rfl, Fallible.run_bind_of_ok (a := ⟨⟩) (t := s)
      ((MintService.run_authorizeChild_iff _ _ _ _ _ _).mpr ⟨delegable, rfl⟩), registered]
    refine Fallible.run_bind_of_error ?_ _
    rw [Fallible.run_bind_of_ok (a := key) (t := s) rfl]
    exact (Fallible.run_bind_of_ok spent _).trans (Fallible.run_bind_of_error ran _)

/-- What a successful call added: one lineage entry, one audit entry, and the nonce
of a call that registers its own key. -/
structure Added (s : MintService L R A) (op : Op) (response : MintVaidResponse)
    (s' : MintService L R A) : Prop where
  lineage : s'.issuer.resolveParent = Function.update s.issuer.resolveParent response.vaid.vaidId
    (.ofRecorded response.vaid.parentVaid)
  audit : ∃ details, AuditSink.record s.audit "vaid_minted" details = (.ok (), s'.audit)
  keyed : ∀ key, op.request.seed.publicKeyDer = some key → ∃ pop, op.request.pop = some pop ∧
    pop.nonce ∉ s.consumedPopNonces ∧ s'.consumedPopNonces = insert pop.nonce s.consumedPopNonces
  keyless : op.request.seed.publicKeyDer = none → s'.consumedPopNonces = s.consumedPopNonces

variable [LawfulLineageStore L]

omit [Crypto] [Chrono] [AuditSink A] in
theorem resolveParent_afterIssue {s : MintService L R A} {env : MintEnv} {request : MintVaidRequest}
    (recorded : (LineageStore.tryRecord s.issuer.lineage ⟨env.issue.agentId.uuid⟩
      request.seed.parentVaid).1 = .ok ()) :
    (s.afterIssue env request).issuer.resolveParent =
      Function.update s.issuer.resolveParent ⟨env.issue.agentId.uuid⟩
        (.ofRecorded request.seed.parentVaid) := by
  funext id
  by_cases drawn : id = ⟨env.issue.agentId.uuid⟩
  · rw [drawn, Function.update_self]
    exact LawfulLineageStore.resolve_recorded _ _ _ recorded
  · rw [Function.update_of_ne drawn]
    exact LawfulLineageStore.resolve_other _ _ _ _ drawn

theorem added_of_ok {s s' : MintService L R A} {op : Op} {response : MintVaidResponse}
    (returned : op.run s = (.ok response, s')) : Added s op response s' := by
  cases op with
  | mintRoot env request =>
    obtain ⟨key, t, expires, audit, -, keyed, -, recorded, rfl, audited, rfl⟩ :=
      (MintService.run_mintRoot_iff _ _ _ _ _).mp returned
    have parent := t.issuer.parentVaid_signedVaid env.issue request.seed.attributes key expires
    have lineage := resolveParent_afterIssue recorded
    rcases keyed with ⟨pop, registered, presented, -, unspent, rfl⟩ | ⟨keyless, -, rfl⟩
    · refine ⟨lineage.trans (congrArg _ (congrArg _ parent.symm)), ⟨_, audited⟩, ?_, ?_⟩
      · exact fun _ _ => ⟨pop, presented, unspent, rfl⟩
      · exact fun none_ => absurd (registered.symm.trans none_) (by simp)
    · refine ⟨lineage.trans (congrArg _ (congrArg _ parent.symm)), ⟨_, audited⟩, ?_, ?_⟩
      · exact fun _ some_ => absurd (keyless.symm.trans some_) (by simp)
      · exact fun _ => rfl
  | mintChild env request parent =>
    obtain ⟨p, key, pop, expires, audit, rfl, -, issuable, signed, -, -, -, audited, rfl⟩ :=
      (MintService.run_mintChild_iff _ _ _ _ _ _).mp returned
    have link := s.issuer.parentVaid_signedVaid env.issue request.seed.attributes key expires
    have lineage := resolveParent_afterIssue (s := s.afterPop pop) issuable.recorded
    refine ⟨?_, ⟨_, audited⟩, ?_, ?_⟩
    · rw [← signed]
      exact lineage.trans (congrArg _ (congrArg _ link.symm))
    · exact fun _ _ => ⟨pop, issuable.presented, issuable.unspent, rfl⟩
    · exact fun none_ => absurd (issuable.registered.symm.trans none_) (by simp)

/-- A successful call adds its lineage entry, its audit entry and its nonce and no
more. A call that a check before the signature stops changes nothing, and one that
the signature or the lineage write stops neither lineage nor audit. -/
theorem mint_effects (s : MintService L R A) (op : Op) :
    (∀ response s', op.run s = (.ok response, s') → Added s op response s') ∧
    (¬ Cleared s op → ∃ e, op.run s = (.error e, s)) ∧
    (∀ key pop, SignatureRefused s op key pop → ∃ e s', op.run s = (.error e, s') ∧
      s'.issuer = s.issuer ∧ s'.audit = s.audit) ∧
    (∀ e, LineageRefused s op e → ∃ e' s', op.run s = (.error e', s') ∧
      s'.issuer.resolveParent = s.issuer.resolveParent ∧ s'.audit = s.audit) := by
  refine ⟨fun _ _ => added_of_ok, refuses_of_not_cleared, fun key pop stopped => ?_,
    fun e stopped => ?_⟩
  · obtain ⟨e, ran⟩ := run_of_signatureRefused stopped
    exact ⟨e, _, ran, rfl, rfl⟩
  · obtain ⟨e', t, ran, issuer, audit⟩ := run_of_lineageRefused stopped
    refine ⟨e', _, ran, ?_, audit⟩
    have kept := LawfulLineageStore.resolve_refused _ _ _ e stopped.refused
    show LineageStore.resolveParent (LineageStore.tryRecord t.issuer.lineage _ _).2 = _
    rw [issuer]
    exact kept

end Calls

section Example

open MintChain

local instance effectsCrypto : Crypto := .standIn

local instance effectsChrono : Chrono :=
  .table [(1893456000, "2030-01-01T00:00:00Z"), (1893459600, "2030-01-01T01:00:00Z")]

/-- The delegation of the example leaves one lineage entry, one audit entry and one
spent nonce. -/
theorem example_added : ∃ s',
    (Op.mintChild exampleEnv exampleRequest (some (exampleParent exampleDomain))).run
        exampleService = (.ok exampleResponse, s') ∧
      s'.issuer.resolveParent = Function.update exampleService.issuer.resolveParent
        exampleResponse.vaid.vaidId (.ofRecorded exampleResponse.vaid.parentVaid) ∧
      s'.audit.entries.length = 1 ∧ s'.consumedPopNonces = {"n"} := by
  obtain ⟨s', returned⟩ := example_returned exampleDomain
  obtain ⟨lineage, ⟨details, audited⟩, keyed, -⟩ := (mint_effects exampleService
    (.mintChild exampleEnv exampleRequest (some (exampleParent exampleDomain)))).1 _ _ returned
  obtain ⟨_, ⟨⟩, -, spent⟩ := keyed [2] rfl
  refine ⟨s', returned, lineage, ?_, spent⟩
  rw [← (Prod.mk.inj audited).2]
  rfl

end Example

end VaidSuite.MintEffects
