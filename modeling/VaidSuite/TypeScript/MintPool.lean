import VaidSuite.TypeScript.MintSpec
import VaidSuite.TypeScript.VerifyCoreSpec

/-! Calls of one TypeScript mint interleaved at their `await`s: a nonce buys at most one
document, and every document that is returned is one that the mint vouches for. -/
namespace VaidSuite.TypeScript.MintPool

open Fallible
open VaidSuite.TypeScript.MintService (Call Delegates Extends IssuedFor)

/-- One call on the mint. -/
inductive Op where
  | mintRoot (env : MintEnv) (request : MintVaidRequest)
  | mintChild (env : MintEnv) (request : MintVaidRequest) (parent : Option Members)

namespace Op

def env : Op → MintEnv
  | mintRoot env _ => env
  | mintChild env _ _ => env

def request : Op → MintVaidRequest
  | mintRoot _ request => request
  | mintChild _ request _ => request

def program [Runtime] [Ed25519] {L R A : Type} [LineageStore L] [AuditSink A] :
    Op → Call L R A MintVaidResponse
  | mintRoot env request => MintService.mintRoot env request
  | mintChild env request parent => MintService.mintChild env request parent

def Authorized [Runtime] (op : Op) (vaid : Members) : Prop :=
  match op with
  | mintRoot env request => env.authz request.seed = .ok ()
  | mintChild env _ parent => ∃ p, Delegates env.parentNow parent (p, vaid)

end Op

section Interleaved

variable [Runtime] [Ed25519] {L R A : Type} [LineageStore L] [AuditSink A]

theorem program_ensures [LawfulLineageStore L] (s : MintService L R A)
    (signing : SigningKey s.issuer.kernelSeed) (op : Op) :
    Ensures Extends (fun t response => op.Authorized response.vaid ∧
      (parentIsUuid response.vaid = true → satisfiesContract response.vaid = true) ∧
      IssuedFor s.issuer op.env.issue op.request t response.vaid)
      (op.program : Call L R A MintVaidResponse) s := by
  cases op with
  | mintRoot env request =>
    refine (MintService.ensures_mintRoot s signing env request).mono ?_
    exact fun t response ⟨allowed, boundary, issued⟩ => ⟨allowed, issued.issued.contract boundary, issued⟩
  | mintChild env request parent =>
    refine (MintService.ensures_mintChild s signing env request parent).mono ?_
    exact fun t response ⟨delegates, boundary, issued⟩ =>
      ⟨delegates, issued.issued.contract boundary, issued⟩

section Nonces

omit [Runtime] [Ed25519] [LineageStore L] [AuditSink A]

variable {nonce : JsStr}

def Consumed (nonce : JsStr) (s : MintService L R A) : Prop := nonce ∈ s.consumedPopNonces

/-- A nonce that is consumed stays consumed. -/
def Keeps (nonce : JsStr) (s t : MintService L R A) : Prop := Consumed nonce s → Consumed nonce t

theorem Keeps.refl (nonce : JsStr) (s : MintService L R A) : Keeps nonce s s := fun held => held

theorem spendNonce_keeps (other : JsStr) :
    Guarantees (Keeps nonce) (MintService.spendNonce other : Call L R A PUnit) := by
  refine guarantees_atomically (fun s => ?_)
  split
  · exact fun held => held
  · exact fun held => Finset.mem_insert_of_mem held

theorem spendNonce_spends :
    (MintService.spendNonce nonce : Call L R A PUnit).Spends (Consumed nonce) := by
  refine spends_atomically (fun s => ?_)
  by_cases spent : nonce ∈ s.consumedPopNonces
  · exact .inr (by simp [spent])
  · exact .inl ⟨spent, by simp [Consumed, spent]⟩

theorem recordAudit_keeps [AuditSink A] (details : Members) :
    Guarantees (Keeps nonce) (MintService.recordAudit details : Call L R A PUnit) := by
  refine guarantees_atomically (fun s => ?_)
  split <;> exact fun held => held

end Nonces

section Calls

variable {nonce : JsStr}

omit [Ed25519] [LineageStore L] [AuditSink A] in
theorem verifyPopAtMint_keeps (now : Int) (seed : VaidSeed) (key : Bytes) (pop : Option MintPop) :
    Guarantees (Keeps nonce) (MintService.verifyPopAtMint now seed key pop : Call L R A PUnit) :=
  (guarantees_required _ _).bind (fun _ => (guarantees_required _ _).bind (fun _ =>
    (guarantees_refuseIf _ _).bind (fun _ => (spendNonce_keeps _).bind (fun _ =>
    (guarantees_ofExcept _).bind (fun _ => guarantees_refuseIf _ _)))))

omit [Ed25519] [LineageStore L] [AuditSink A] in
theorem verifyPopAtMint_spends {pop : Option MintPop} (carried : ∀ p, pop = some p → p.nonce = nonce)
    (now : Int) (seed : VaidSeed) (key : Bytes) :
    (MintService.verifyPopAtMint now seed key pop : Call L R A PUnit).Spends (Consumed nonce) := by
  refine (returns_required _ _).bind_spends (fun p present => ?_)
  refine (returns_any _).bind_spends (fun _ _ => (returns_any _).bind_spends (fun _ _ => ?_))
  obtain rfl := carried p present
  exact spendNonce_spends.bind _

omit [AuditSink A] in
theorem issue_keeps (env : IssueEnv) (attributes : IssueAttributes) (key : Bytes) (notAfter : JsValue) :
    Guarantees (Keeps nonce)
      (MintService.issue env attributes key notAfter : Call L R A Members) := by
  refine (guarantees_read (Keeps.refl nonce) _).bind (fun _ => ?_)
  refine (guarantees_ofExcept _).bind (fun _ => ?_)
  refine guarantees_atomically (fun s => ?_)
  split <;> exact fun held => held

omit [AuditSink A] in
theorem issueRoot_keeps (env : MintEnv) (request : MintVaidRequest) :
    Guarantees (Keeps nonce) (MintService.issueRoot env request : Call L R A Members) := by
  unfold MintService.issueRoot
  cases request.seed.publicKeyDer with
  | none => exact issue_keeps _ _ _ _
  | some key => exact (verifyPopAtMint_keeps _ _ _ _).bind (fun _ => issue_keeps _ _ _ _)

omit [Ed25519] [AuditSink A] in
theorem authorizeChild_keeps (now : Int) (seed : VaidSeed) (parent : Members) :
    Guarantees (Keeps nonce) (MintService.authorizeChild now seed parent : Call L R A PUnit) :=
  (guarantees_read (Keeps.refl nonce) _).bind (fun _ => (guarantees_ofExcept _).bind (fun _ =>
    (guarantees_required _ _).bind (fun _ => (guarantees_read (Keeps.refl nonce) _).bind (fun _ =>
    (guarantees_refuseIf _ _).bind (fun _ => (guarantees_refuseIf _ _).bind (fun _ =>
    (guarantees_refuseIf _ _).bind (fun _ => (guarantees_ofExcept _).bind (fun _ =>
    (guarantees_refuseIf _ _).bind (fun _ => (guarantees_ofExcept _).bind (fun _ =>
    (guarantees_refuseIf _ _).bind (fun _ => guarantees_refuseIf _ _)))))))))))

omit [AuditSink A] in
theorem delegateChild_keeps (env : MintEnv) (request : MintVaidRequest) (parent : Option Members) :
    Guarantees (Keeps nonce)
      (MintService.delegateChild env request parent : Call L R A (Members × Members)) := by
  have issue : ∀ p, Guarantees (Keeps nonce)
      (MintService.issueChild env request p : Call L R A Members) := fun p =>
    (guarantees_required _ _).bind (fun _ => (verifyPopAtMint_keeps _ _ _ _).bind (fun _ =>
      (issue_keeps _ _ _ _).bind (fun _ => (guarantees_refuseIf _ _).bind (fun _ => guarantees_pure _))))
  exact (guarantees_refuseIf _ _).bind (fun _ => (guarantees_required _ _).bind (fun p =>
    (authorizeChild_keeps _ _ p).bind (fun _ => (issue p).bind (fun _ => guarantees_pure _))))

theorem program_keeps (op : Op) :
    Guarantees (Keeps nonce) (op.program : Call L R A MintVaidResponse) := by
  have whole : ∀ {α : Type} {p : Call L R A α}, Guarantees (Keeps nonce) p →
      Guarantees (Keeps nonce) p.uninterrupted :=
    fun keeps => Guarantees.uninterrupted (Keeps.refl nonce)
      (fun first second held => second (first held)) keeps
  cases op with
  | mintRoot env request =>
    exact (guarantees_refuseIf _ _).bind (fun _ => (guarantees_ofExcept _).bind (fun _ =>
      (whole (issueRoot_keeps env request)).bind (fun _ =>
      (recordAudit_keeps _).bind (fun _ => guarantees_pure _))))
  | mintChild env request parent =>
    exact (whole (delegateChild_keeps env request parent)).bind (fun ⟨_, _⟩ =>
      (recordAudit_keeps _).bind (fun _ => guarantees_pure _))

/-- A call that registers its own key, with a proof under this nonce. -/
def ByoWith (nonce : JsStr) (op : Op) : Prop :=
  op.request.seed.publicKeyDer.isSome = true ∧ ∃ pop, op.request.pop = some pop ∧ pop.nonce = nonce

theorem program_spends {op : Op} (byo : ByoWith nonce op) :
    (op.program : Call L R A MintVaidResponse).Spends (Consumed nonce) := by
  obtain ⟨registered, pop, presented, rfl⟩ := byo
  have carried : ∀ p, op.request.pop = some p → p.nonce = pop.nonce := by
    intro p present
    cases presented.symm.trans present
    rfl
  cases op with
  | mintRoot env request =>
    obtain ⟨key, own⟩ := Option.isSome_iff_exists.mp registered
    have issue : (MintService.issueRoot env request :
        Call L R A Members).Spends (Consumed pop.nonce) := by
      unfold MintService.issueRoot
      rw [show request.seed.publicKeyDer = some key from own]
      exact (verifyPopAtMint_spends carried _ _ _).bind _
    refine (returns_any _).bind_spends (fun _ _ => (returns_any _).bind_spends (fun _ _ => ?_))
    exact (issue.uninterrupted (issueRoot_keeps env request)).bind _
  | mintChild env request parent =>
    have delegate : (MintService.delegateChild env request parent :
        Call L R A (Members × Members)).Spends (Consumed pop.nonce) := by
      refine (returns_any _).bind_spends (fun _ _ => (returns_any _).bind_spends (fun p _ => ?_))
      refine (returns_any _).bind_spends (fun _ _ => Spends.bind ?_ _)
      refine (returns_any _).bind_spends (fun key _ => ?_)
      exact (verifyPopAtMint_spends carried _ _ _).bind _
    exact (delegate.uninterrupted (delegateChild_keeps env request parent)).bind _

end Calls

/-- The service and the calls on it, none of which has begun. -/
def mintPool {ι : Type} (service : MintService L R A) (calls : ι → Op) :
    Pool ι (MintService L R A) (Outcome MintError MintVaidResponse) :=
  ⟨service, fun i => (calls i).program⟩

theorem returned_document [LawfulLineageStore L] {ι : Type} [DecidableEq ι]
    {service : MintService L R A} (signing : SigningKey service.issuer.kernelSeed) {calls : ι → Op}
    {schedule : List ι} {i : ι} {response : MintVaidResponse}
    (returned : ((mintPool service calls).run schedule).Returned i (.ok response)) :
    (calls i).Authorized response.vaid ∧
      (parentIsUuid response.vaid = true → satisfiesContract response.vaid = true) ∧
      IssuedFor service.issuer (calls i).env.issue (calls i).request
        ((mintPool service calls).run schedule).shared response.vaid := by
  have relying : (mintPool service calls).Relying Extends (fun k t outcome => ∀ response,
      outcome = .ok response → (calls k).Authorized response.vaid ∧
        (parentIsUuid response.vaid = true → satisfiesContract response.vaid = true) ∧
        IssuedFor service.issuer (calls k).env.issue (calls k).request t response.vaid) :=
    fun k => program_ensures service signing (calls k)
  refine relying.returned Extends.refl Extends.trans ?_ returned response rfl
  intro k s t outcome moved right response ok
  obtain ⟨authorized, contract, issued⟩ := right response ok
  exact ⟨authorized, contract, issued.later moved⟩

/-- In every interleaving of calls on one mint, a nonce buys at most one document. A document that
is returned was allowed by the gate or is within its parent, is accepted off the wire, is
authentic under the kernel key, is on record, and is what its proof of possession signs. -/
theorem mint_calls_issue [LawfulLineageStore L] {ι : Type} [DecidableEq ι] (service : MintService L R A)
    (signing : SigningKey service.issuer.kernelSeed) (calls : ι → Op) (schedule : List ι) :
    let pool := (mintPool service calls).run schedule
    (∀ nonce i j first second, ByoWith nonce (calls i) → ByoWith nonce (calls j) →
      pool.Returned i (.ok first) → pool.Returned j (.ok second) → i = j) ∧
    ∀ i response, pool.Returned i (.ok response) → (calls i).Authorized response.vaid ∧
      (parentIsUuid response.vaid = true → satisfiesContract response.vaid = true) ∧
      IssuedFor service.issuer (calls i).env.issue (calls i).request pool.shared response.vaid := by
  intro pool
  refine ⟨fun nonce i j first second byo byo' returned returned' => ?_, fun i response returned => ?_⟩
  · -- a call wins if it carries the nonce and returns a document
    let won (k : ι) (r : Outcome MintError MintVaidResponse) : Prop :=
      ByoWith nonce (calls k) ∧ ∃ response, r = .ok response
    have spends : ∀ k, ((mintPool service calls).programs k).Spends (Consumed nonce) (won k) := by
      intro k
      by_cases carries : ByoWith nonce (calls k)
      · exact Program.Spends.mono (fun r h => h.2) (program_spends carries)
      · exact Program.Always.spends (Program.Always.of_forall (fun r h => carries h.1) _)
    have keeps : ∀ k, ((mintPool service calls).programs k).KeepsSpent (Consumed nonce) :=
      fun k => program_keeps (calls k)
    exact Pool.OneWinner.unique spends keeps returned ⟨byo, first, rfl⟩ returned' ⟨byo', second, rfl⟩
  · exact returned_document signing returned

end Interleaved

section Example

/-- A toy scheme, at the start of 1970. -/
@[reducible] def datedRuntime : Runtime :=
  { Runtime.toy with dateParse := fun s => if s = js "1970-01-01T00:00:00Z" then some 0 else none }

@[reducible] def toyKeys : Ed25519 where
  ed25519PublicKey seed := seed
  ed25519Sign _ _ := [1]

attribute [local instance] datedRuntime toyKeys

theorem domain_valid : isValidTrustDomain (.str (js "vaid.acme.com")) = true := by decide +kernel

def exampleService : MintService InMemoryLineageStore InMemoryRevocationList InMemoryAudit where
  issuer := ⟨[7], 24, ⟨js "vaid.acme.com", domain_valid⟩, .new, .assumeNothingRevoked⟩
  audit := ⟨[]⟩
  consumedPopNonces := ∅
  maxDelegationDepth := defaultMaxDelegationDepth

theorem exampleSigning : SigningKey exampleService.issuer.kernelSeed := fun _ => rfl

def holderSeed : VaidSeed where
  agentClass := js "worker"
  version := js "1"
  tenantId := js "acme"
  parentVaid := none
  scopeBoundary := .arr []
  capabilitySet := [js "read"]
  publicKeyDer := some [5]

def holderPop : MintPop := ⟨js "n", js "1970-01-01T00:00:00Z", [1]⟩

theorem digits_length (d : Fin 16) : (List.replicate 31 0 ++ [d]).length = 32 := rfl

def sentTwice (again : Bool) : Op :=
  .mintRoot ⟨permitAll, 0, 0, ⟨⟨List.replicate 31 0 ++ [if again then 2 else 1], digits_length _⟩, 0, []⟩⟩
    ⟨holderSeed, some holderPop⟩

def returnedVaid {L R A : Type} : Call L R A MintVaidResponse → Option Members
  | .ret (.ok response) => some response.vaid
  | _ => none

theorem of_returnedVaid {L R A : Type} {p : Call L R A MintVaidResponse} {vaid : Members}
    (returned : returnedVaid p = some vaid) :
    ∃ response, p = .ret (.ok response) ∧ response.vaid = vaid := by
  match p, returned with
  | .ret (.ok response), same => exact ⟨response, rfl, Option.some.inj same⟩

/-- The two calls meet, and the second to act gets no document. -/
theorem mint_calls_issue_replay :
    let pool := (mintPool exampleService sentTwice).run [true, false, true, false]
    (∃ response, pool.Returned true (.ok response) ∧
      IssuedFor exampleService.issuer (sentTwice true).env.issue (sentTwice true).request pool.shared
        response.vaid) ∧
    ∀ response, ¬ pool.Returned false (.ok response) := by
  intro pool
  obtain ⟨once, issued⟩ := mint_calls_issue exampleService exampleSigning sentTwice
    [true, false, true, false]
  have first : (returnedVaid (pool.programs true)).isSome = true := by decide +kernel
  obtain ⟨vaid, here⟩ := Option.isSome_iff_exists.mp first
  obtain ⟨response, returned, -⟩ := of_returnedVaid here
  have byo : ∀ again, ByoWith (js "n") (sentTwice again) := fun _ => ⟨rfl, holderPop, rfl, rfl⟩
  refine ⟨⟨response, returned, (issued true response returned).2.2⟩, fun second returned' => ?_⟩
  cases once (js "n") true false response second (byo _) (byo _) returned returned'

end Example

end VaidSuite.TypeScript.MintPool
