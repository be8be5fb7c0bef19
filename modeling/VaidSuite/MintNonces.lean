import VaidSuite.Lib.Interleaving
import VaidSuite.MintRuns

/-! Calls of one mint interleaved at its locks: a proof-of-possession nonce is spent
once, and a proof binds the document it bought. -/
namespace VaidSuite.MintNonces

open MintService (Call)
open MintRuns (Op)
open Fallible

variable [Crypto] [Chrono] {L R A : Type} [LineageStore L]

def Consumed (nonce : String) (s : MintService L R A) : Prop := nonce ∈ s.consumedPopNonces

omit [Crypto] [Chrono] in
theorem consumed_kept (nonce : String) (id : VaidId) :
    MintService.Kept id (fun s t : MintService L R A => Consumed nonce s → Consumed nonce t) where
  refl _ := fun h => h
  nonce _ _ := fun h => Finset.mem_insert_of_mem h
  audit _ _ := fun h => h
  lineage _ _ := fun h => h

omit [Crypto] [Chrono] [LineageStore L] in
theorem spendNonce_spends (nonce : String) :
    (MintService.spendNonce nonce : Call L R A PUnit).Spends (Consumed nonce) := by
  refine spends_atomically (fun s => ?_)
  by_cases spent : nonce ∈ s.consumedPopNonces
  · exact .inr (by simp [spent])
  · exact .inl ⟨spent, by simp [Consumed, spent]⟩

omit [LineageStore L] in
theorem verifyPopAtMint_spends {nonce : String} {pop : Option MintPop}
    (carried : ∀ p, pop = some p → p.nonce = nonce) (now : Instant) (seed : VaidSeed) (key : Bytes) :
    (MintService.verifyPopAtMint now seed key pop : Call L R A PUnit).Spends (Consumed nonce) := by
  refine (returns_required _ _).bind_spends (fun p present => ?_)
  refine (returns_any _).bind_spends (fun _ _ => ?_)
  obtain rfl := carried p present
  exact (spendNonce_spends p.nonce).bind _

variable [AuditSink A]

/-- A call that registers its own key, with a proof under this nonce. -/
def ByoWith (nonce : String) (op : Op) : Prop :=
  op.request.seed.publicKeyDer.isSome = true ∧ ∃ pop, op.request.pop = some pop ∧ pop.nonce = nonce

/-- Whichever entry point it uses, such a call cannot succeed without spending the
nonce. -/
theorem program_spends {nonce : String} {op : Op} (byo : ByoWith nonce op) :
    (op.program : Call L R A MintVaidResponse).Spends (Consumed nonce) := by
  obtain ⟨registered, pop, presented, rfl⟩ := byo
  have carried : ∀ p, op.request.pop = some p → p.nonce = pop.nonce := by
    intro p present
    cases presented.symm.trans present
    rfl
  cases op with
  | mintRoot env request =>
    obtain ⟨key, own⟩ := Option.isSome_iff_exists.mp registered
    have issue : (MintService.issueRoot env request : Call L R A Vaid).Spends (Consumed pop.nonce) := by
      unfold MintService.issueRoot
      rw [show request.seed.publicKeyDer = some key from own]
      exact (verifyPopAtMint_spends carried _ _ _).bind _
    exact (returns_any _).bind_spends (fun _ _ => issue.bind _)
  | mintChild env request parent =>
    refine (returns_any _).bind_spends (fun parent _ => (returns_any _).bind_spends (fun _ _ => ?_))
    refine Spends.bind ((returns_any _).bind_spends (fun _ _ => ?_)) _
    exact (verifyPopAtMint_spends carried _ _ _).bind _

def documentPayload (vaid : Vaid) (pop : MintPop) : MintPopPayload where
  publicKeyDer := vaid.publicKeyDer
  tenantId := vaid.tenantId.asStr
  agentClass := vaid.agentClass.asStr
  version := vaid.version
  parentVaid := vaid.parentVaid
  scopeBoundary := vaid.scopeBoundary
  capabilitySet := vaid.capabilitySet
  nonce := pop.nonce
  issuedAt := pop.issuedAt

/-- The call's proof verifies, under the key stored in the document, over the
payload of that document. -/
def Binds (request : MintVaidRequest) (vaid : Vaid) : Prop :=
  ∀ key, request.seed.publicKeyDer = some key → vaid.publicKeyDer = key ∧
    ∃ pop, request.pop = some pop ∧
      verifySignedPayload (documentPayload vaid pop).toJson vaid.publicKeyDer pop.signature = true

omit [LineageStore L] [AuditSink A] in
theorem documentPayload_signedVaid (issuer : ReferenceIssuer L R) (env : IssueEnv) (seed : VaidSeed)
    (key : Bytes) (expires : Instant) (pop : MintPop) :
    documentPayload (issuer.signedVaid env seed.attributes key expires) pop =
      seed.popPayload key pop.nonce pop.issuedAt := by
  unfold documentPayload
  rw [ReferenceIssuer.parentVaid_signedVaid]
  rfl

omit [LineageStore L] [AuditSink A] in
theorem verifyPopAtMint_returns (now : Instant) (seed : VaidSeed) (key : Bytes)
    (pop : Option MintPop) :
    (MintService.verifyPopAtMint now seed key pop : Call L R A PUnit).Returns (fun _ =>
      ∃ p, pop = some p ∧ verifySignedPayload (seed.popPayload key p.nonce p.issuedAt).toJson key
        p.signature = true) := by
  refine (returns_required _ _).bind (fun p present => ?_)
  refine .after _ (fun _ => .after _ (fun _ => (returns_refuseIf _ _).mono (fun _ signed => ?_)))
  exact ⟨p, present, by simpa using signed⟩

omit [AuditSink A] in
theorem issueVaidWithKey_returns (env : IssueEnv) (attributes : IssueAttributes) (key : Bytes)
    (notAfter : Option String) :
    (MintService.issueVaidWithKey env attributes key notAfter : Call L R A Vaid).Returns (fun v =>
      ∃ (issuer : ReferenceIssuer L R) (expires : Instant),
        v = issuer.signedVaid env attributes key expires) := by
  refine returns_atomically (fun s v issued => ?_)
  obtain ⟨expires, _, _, signed, _⟩ := (s.issuer.buildAndSignVaid_eq_ok_iff env attributes key notAfter
    v _).mp (Prod.ext issued rfl)
  exact ⟨s.issuer, expires, signed⟩

omit [LineageStore L] [AuditSink A] in
theorem binds_signedVaid (issuer : ReferenceIssuer L R) (env : IssueEnv) (expires : Instant)
    {request : MintVaidRequest} {key : Bytes} (own : request.seed.publicKeyDer = some key)
    {p : MintPop} (presented : request.pop = some p)
    (signed : verifySignedPayload (request.seed.popPayload key p.nonce p.issuedAt).toJson key
      p.signature = true) :
    Binds request (issuer.signedVaid env request.seed.attributes key expires) := by
  intro key' own'
  cases own.symm.trans own'
  exact ⟨rfl, p, presented, by rw [documentPayload_signedVaid]; exact signed⟩

theorem program_binds (op : Op) : (op.program : Call L R A MintVaidResponse).Returns
    (fun response => Binds op.request response.vaid) := by
  cases op with
  | mintRoot env request =>
    have issue : (MintService.issueRoot env request : Call L R A Vaid).Returns (Binds request) := by
      unfold MintService.issueRoot
      cases own : request.seed.publicKeyDer with
      | none =>
        refine (returns_any _).mono (fun v _ key own' => ?_)
        cases own.symm.trans own'
      | some key =>
        refine (verifyPopAtMint_returns _ _ _ _).bind (fun _ ⟨p, presented, signed⟩ => ?_)
        refine (issueVaidWithKey_returns _ _ _ _).mono ?_
        rintro _ ⟨issuer, expires, rfl⟩
        exact binds_signedVaid issuer env.issue expires own presented signed
    refine .after _ (fun _ => issue.bind (fun v binds => .after _ (fun _ => ?_)))
    exact returns_pure binds
  | mintChild env request parent =>
    refine .after _ (fun parent => .after _ (fun _ => ?_))
    have issue : (MintService.issueChild env request parent : Call L R A Vaid).Returns
        (Binds request) := by
      refine (returns_required _ _).bind (fun key own => ?_)
      refine (verifyPopAtMint_returns _ _ _ _).bind (fun _ ⟨p, presented, signed⟩ => ?_)
      refine (issueVaidWithKey_returns _ _ _ _).bind ?_
      rintro _ ⟨issuer, expires, rfl⟩
      exact .after _ (fun _ =>
        returns_pure (binds_signedVaid issuer env.issue expires own presented signed))
    exact issue.bind (fun v binds => .after _ (fun _ => returns_pure binds))

/-- The service and the calls on it, none of which has begun. -/
def mintPool {ι : Type} (service : MintService L R A) (calls : ι → Op) :
    Pool ι (MintService L R A) (MintResult MintVaidResponse) :=
  ⟨service, fun i => (calls i).program⟩

/-- In every interleaving of calls on one mint a nonce buys at most one document, and
the proof a call carries binds the document it returns. -/
theorem nonce_spent_once_and_binding {ι : Type} [DecidableEq ι] (service : MintService L R A)
    (calls : ι → Op) (schedule : List ι) :
    let pool := (mintPool service calls).run schedule
    (∀ nonce i j first second, ByoWith nonce (calls i) → ByoWith nonce (calls j) →
      pool.Returned i (.ok first) → pool.Returned j (.ok second) → i = j) ∧
    ∀ i response, pool.Returned i (.ok response) → Binds (calls i).request response.vaid := by
  intro pool
  refine ⟨fun nonce i j first second byo byo' returned returned' => ?_, fun i response returned => ?_⟩
  · -- a call wins if it carries the nonce and returns a document
    let won (k : ι) (r : MintResult MintVaidResponse) : Prop :=
      ByoWith nonce (calls k) ∧ ∃ response, r = .ok response
    have spends : ∀ k, ((mintPool service calls).programs k).Spends (Consumed nonce) (won k) := by
      intro k
      by_cases carries : ByoWith nonce (calls k)
      · exact Program.Spends.mono (fun r h => h.2) (program_spends carries)
      · exact Program.Always.spends (Program.Always.of_forall (fun r h => carries h.1) _)
    have keeps : ∀ k, ((mintPool service calls).programs k).KeepsSpent (Consumed nonce) :=
      fun k => (calls k).program_keeps (consumed_kept nonce _)
    exact Pool.OneWinner.unique spends keeps returned ⟨byo, first, rfl⟩ returned' ⟨byo', second, rfl⟩
  · have always := fun k => program_binds (L := L) (R := R) (A := A) (calls k)
    exact Pool.always_run always returned response rfl

end VaidSuite.MintNonces
