import VaidSuite.Python.Refusals

/-! Which A2A messages pass without a check: those that present nothing, and those that
slip through with a chain or a null in place of a leaf. -/
namespace VaidSuite.Python

open Raising (Returns)

def CarriesKey (message : Dict) : Prop :=
  ∃ metadata : Dict, message.get "metadata" = .obj metadata ∧
    (HasMember metadata metadataVaidKey ∨ HasMember metadata metadataChainKey)

/-- What the verifier reads under the leaf's key. -/
def leafValue (message : Dict) : PyValue :=
  match message.get "metadata" with
  | .obj metadata => Dict.get metadata metadataVaidKey
  | _ => .null

/-- The message is fully verified, or denied. -/
def Decided (result : VerifyResult) : Prop :=
  (result.allowed = true ∧ result.code = .allowed) ∨ result.allowed = false

/-- A message that carries a key is let through where no leaf is required and its leaf is null or
left out. -/
def SlipsThrough (message : Dict) (requireVaid : Bool) : Prop :=
  requireVaid = false ∧ CarriesKey message ∧ leafValue message = .null

theorem carriesKey_of_leafValue {message : Dict} (present : leafValue message ≠ .null) : CarriesKey message := by
  unfold leafValue at present
  cases inMessage : message.get "metadata" with
  | obj metadata =>
    rw [inMessage] at present
    exact ⟨metadata, inMessage, .inl (hasMember_of_get present)⟩
  | _ =>
    rw [inMessage] at present
    exact absurd rfl present

theorem leafValue_of_holdsDicts {message leaf : Dict} {chain : List Dict}
    (holds : HoldsDicts message leaf chain) : leafValue message = .obj leaf := by
  obtain ⟨metadata, inMessage, carried, -⟩ := holds
  rw [leafValue, inMessage]
  exact carried

section Outcomes

variable [Libraries]

theorem decided_report (keys : TrustedIssuerMap) (leaf : Dict) (fault : Fault) :
    Decided (report keys leaf fault) := by
  cases fault <;> exact .inr rfl

theorem decided_verifyStanding {revocation : List PyStr → RevocationStatus} {requestedAction : Option PyStr}
    {leaf : Dict} {bundle : PresentedBundle} {result : VerifyResult}
    (returned : verifyStanding revocation requestedAction leaf bundle = .ok result) : Decided result := by
  obtain ⟨inScope, _, returned⟩ := Raising.of_bind_eq_ok returned
  cases inScope with
  | false =>
    cases returned
    exact .inr rfl
  | true =>
    obtain ⟨lineage, _, returned⟩ := Raising.of_bind_eq_ok returned
    cases lineage with
    | none =>
      cases returned
      exact .inr rfl
    | some ids =>
      cases answer : revocation ids with
      | notRevoked =>
        simp only [answer] at returned
        cases returned
        exact .inl ⟨rfl, rfl⟩
      | _ =>
        simp only [answer] at returned
        cases returned
        exact .inr rfl

theorem decided_verifyPresented {keys : TrustedIssuerMap} {revocation : List PyStr → RevocationStatus}
    {requestedAction : Option PyStr} {now : UtcDatetime} {leaf : Dict} {chain : List Dict} {result : VerifyResult}
    (returned : verifyPresented keys revocation requestedAction now leaf chain = .ok result) :
    Decided result := by
  rw [verifyPresented_eq] at returned
  rcases of_checkBearer returned with ⟨fault, rfl⟩ | ⟨bundle, _, returned⟩
  · exact decided_report keys leaf fault
  · exact decided_verifyStanding returned

section Loaded

variable {message trustConfig : Dict} {keys : TrustedIssuerMap}
  (loads : buildKeyResolver trustConfig = .ok keys) (revocation : List PyStr → RevocationStatus)
  (requestedAction : Option PyStr) (now : Option UtcDatetime) (clock : UtcDatetime) (requireVaid : Bool)

include loads

/-- Without a leaf the message passes, unless one is required. -/
theorem verifyA2aMessage_of_absent (absent : leafValue message = .null) : ∃ reason,
    verifyA2aMessage message trustConfig revocation requestedAction now clock requireVaid =
      .ok ⟨!requireVaid, .noVaid, reason⟩ := by
  rw [verifyA2aMessage, loads, Raising.ok_bind]
  unfold leafValue at absent
  cases inMessage : message.get "metadata" with
  | obj metadata =>
    rw [inMessage] at absent
    simp only [absent]
    cases requireVaid <;> exact ⟨_, rfl⟩
  | _ =>
    have empty : Dict.get [] metadataVaidKey = .null := rfl
    simp only [empty]
    cases requireVaid <;> exact ⟨_, rfl⟩

theorem decided_of_present (present : leafValue message ≠ .null) {result : VerifyResult}
    (returned : verifyA2aMessage message trustConfig revocation requestedAction now clock requireVaid =
      .ok result) : Decided result := by
  rw [verifyA2aMessage, loads, Raising.ok_bind] at returned
  unfold leafValue at present
  cases inMessage : message.get "metadata" with
  | obj metadata =>
    simp only [inMessage] at present returned
    cases leafIs : Dict.get metadata metadataVaidKey with
    | null => exact absurd leafIs present
    | obj leaf =>
      simp only [leafIs] at returned
      cases chainIs : presentedChain metadata with
      | none =>
        simp only [chainIs] at returned
        cases returned
        exact .inr rfl
      | some chain =>
        simp only [chainIs] at returned
        exact decided_verifyPresented returned
    | _ =>
      simp only [leafIs] at returned
      cases returned
      exact .inr rfl
  | _ =>
    rw [inMessage] at present
    exact absurd rfl present

end Loaded

/-- The verifier passes the message unverified exactly when it presents nothing and may, and verifies
or denies it when it carries a key. -/
def PassesOnlyEmpty (message trustConfig : Dict) (revocation : List PyStr → RevocationStatus)
    (requestedAction : Option PyStr) (now : Option UtcDatetime) (clock : UtcDatetime) (requireVaid : Bool) :
    Prop :=
  ((∃ result, verifyA2aMessage message trustConfig revocation requestedAction now clock requireVaid =
      .ok result ∧ result.allowed = true ∧ result.code = .noVaid) ↔
    requireVaid = false ∧ ¬ CarriesKey message) ∧
  (CarriesKey message → ∃ result,
    verifyA2aMessage message trustConfig revocation requestedAction now clock requireVaid = .ok result ∧
      Decided result)

/-- The message does not slip through, and what it presents is presentable. A configuration that does
not load stops every message. -/
def IsSettled (message trustConfig : Dict) (now : UtcDatetime) (requireVaid : Bool) : Prop :=
  match buildKeyResolver trustConfig with
  | .ok keys => ¬ SlipsThrough message requireVaid ∧ PresentableMessage keys.binding now message
  | .error _ => requireVaid = true ∧ ¬ CarriesKey message

theorem passesOnlyEmpty_iff (message trustConfig : Dict) (revocation : List PyStr → RevocationStatus)
    (requestedAction : Option PyStr) (now : Option UtcDatetime) (clock : UtcDatetime) (requireVaid : Bool) :
    PassesOnlyEmpty message trustConfig revocation requestedAction now clock requireVaid ↔
      IsSettled message trustConfig (now.getD clock) requireVaid := by
  unfold PassesOnlyEmpty IsSettled
  cases loads : buildKeyResolver trustConfig with
  | error e =>
    have raised : verifyA2aMessage message trustConfig revocation requestedAction now clock requireVaid =
        .error e := by
      rw [verifyA2aMessage, loads]
      rfl
    cases requireVaid <;> simp [raised]
  | ok keys =>
    dsimp only
    by_cases absent : leafValue message = .null
    · obtain ⟨reason, returned⟩ := verifyA2aMessage_of_absent loads revocation requestedAction now clock
        requireVaid absent
      have presentable : PresentableMessage keys.binding (now.getD clock) message := by
        intro leaf chain holds
        rw [leafValue_of_holdsDicts holds] at absent
        cases absent
      simp only [returned, Except.ok.injEq, exists_eq_left', Decided, SlipsThrough, absent, presentable]
      cases requireVaid <;> simp
    · have carries := carriesKey_of_leafValue absent
      have decided {result : VerifyResult} (returned : verifyA2aMessage message trustConfig revocation
          requestedAction now clock requireVaid = .ok result) : Decided result :=
        decided_of_present loads revocation requestedAction now clock requireVaid absent returned
      have noPass : ¬ ∃ result,
          verifyA2aMessage message trustConfig revocation requestedAction now clock requireVaid = .ok result ∧
            result.allowed = true ∧ result.code = .noVaid := by
        rintro ⟨result, returned, allowed, code⟩
        rcases decided returned with ⟨_, other⟩ | denied
        · rw [code] at other
          cases other
        · rw [allowed] at denied
          cases denied
      rw [iff_false_intro noPass, ← returns_verifyA2aMessage _ loads revocation requestedAction now clock requireVaid]
      constructor
      · rintro ⟨-, settles⟩
        obtain ⟨result, returned, -⟩ := settles carries
        exact ⟨fun slips => absent slips.2.2, result, returned⟩
      · rintro ⟨-, result, returned⟩
        exact ⟨⟨False.elim, fun h => h.2 carries⟩, fun _ => ⟨result, returned, decided returned⟩⟩

end Outcomes

section Example

local instance leaflessLibraries : Libraries := .plain

def leaflessMessage : Dict := [(py "metadata", .obj [(py metadataChainKey, .arr [])])]

theorem leafless_passes : ¬ PassesOnlyEmpty leaflessMessage [] (fun _ => .revoked) none (some 0) 0 false := by
  rintro ⟨-, settles⟩
  obtain ⟨result, returned, decided⟩ := settles ⟨_, rfl, .inr rfl⟩
  cases returned
  rcases decided with ⟨_, ⟨⟩⟩ | ⟨⟨⟩⟩

end Example

end VaidSuite.Python
