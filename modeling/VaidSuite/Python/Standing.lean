import VaidSuite.CallerBinding
import VaidSuite.Python.FromJson
import VaidSuite.Python.Totality

/-! The Python mirror of standing, and of standing bound to a caller. A `CallerMismatchError` is a
result here, as it is in Rust. -/
namespace VaidSuite.Python

open Raising (Returns Sound)

/-- `matches`. -/
def isExpectedCaller (expected : ExpectedCaller PyStr) (vaid : Dict) : Bool :=
  expected.agentId.all (fun e => pyEq (.str e) (vaid.get "agent_id")) &&
    expected.agentClass.all (fun e => pyEq (.str e) (vaid.get "agent_class")) &&
    expected.tenantId.all (fun e => pyEq (.str e) (vaid.get "tenant_id"))

variable [Libraries]

/-- Authenticity, then expiry, then readable scope kinds, then the revocation status that the
caller found. -/
def verifyVaidStanding (kernelPublicKey : Bytes) (vaid : Dict) (revocation : RevocationStatus)
    (now : UtcDatetime) : Raises VaidVerdict := do
  let authenticity ← verifyVaidAuthenticityGraded kernelPublicKey vaid
  if !authenticity.isValid then return authenticity
  if ← isExpiredAt vaid now then return .expired
  match vaid.get "scope_boundary" with
  | .arr scopeBoundary =>
    if !boundaryIsEvaluable scopeBoundary then return .unknownScopeKind
    return .ofRevocation revocation
  | _ => throw (.malformedDocument (py "vaid.scope_boundary is missing or not a list"))

/-- What is not a mapping is malformed, and what is malformed is reported as unparseable. -/
def verifyVaidStandingBound (kernelPublicKey : Bytes) (vaid : PyValue) (revocation : RevocationStatus)
    (expected : ExpectedCaller PyStr) (now : UtcDatetime) :
    Raises (Except CallerMismatchError VaidVerdict) :=
  match vaid with
  | .obj vaid =>
    match verifyVaidStanding kernelPublicKey vaid revocation now with
    | .ok verdict => .ok (boundVerdict verdict (isExpectedCaller expected vaid))
    | .error (.malformedDocument _) => .ok (.ok .unparseable)
    | .error e => .error e
  | _ => .ok (.ok .unparseable)

def verifyVaidStandingBoundFromJson (kernelPublicKey : Bytes) (documentJson : PyStr)
    (revocation : RevocationStatus) (expected : ExpectedCaller PyStr) (now : UtcDatetime) :
    Raises (Except CallerMismatchError VaidVerdict) :=
  match parseVaidDocument documentJson with
  | some document =>
    verifyVaidStandingBound kernelPublicKey (.obj document) revocation expected now
  | none => .ok (.ok .unparseable)

section Malformed

variable {message : PyStr}

omit [Libraries] in
theorem encode_ne_malformed (s : PyStr) : encode s ≠ .error (.malformedDocument message) := by
  unfold encode
  cases s.mapM CodePoint.toChar? <;> rintro ⟨⟩

omit [Libraries] in
theorem isValidTrustDomain_ne_malformed (v : PyValue) :
    isValidTrustDomain v ≠ .error (.malformedDocument message) := by
  cases v with
  | str s =>
    rw [isValidTrustDomain]
    split_ifs
    · rintro ⟨⟩
    · cases encoded : encode s with
      | ok b => rintro ⟨⟩
      | error e =>
        rintro ⟨⟩
        exact encode_ne_malformed s encoded
  | _ => rintro ⟨⟩

theorem verifyLineageHash_ne_malformed (d : Dict) :
    verifyLineageHash d ≠ .error (.malformedDocument message) := by
  unfold verifyLineageHash
  split
  · rintro ⟨⟩
  · refine Raising.bind_ne_error (Raising.bind_ne_error (encode_ne_malformed _) ?_) ?_
    · rintro _ _ ⟨⟩
    · rintro _ _ ⟨⟩

theorem verifyKernelSignature_ne_malformed (key : Bytes) (d : Dict) :
    verifyKernelSignature key d ≠ .error (.malformedDocument message) := by
  by_cases length : key.length = 32
  · rw [verifyKernelSignature_eq length]
    refine Raising.bind_ne_error ?_ (fun v _ => Raising.bind_ne_error ?_ (fun signature _ => ?_))
    · unfold Dict.item
      cases d.lookup (py "kernel_signature") <;> rintro ⟨⟩
    · intro failed
      rcases of_toBytes_eq_error failed with caught | ⟨other, -⟩
      · simp at caught
      · simp at other
    · rcases ed25519Check_cases key signature d with ended | ended | ended
      all_goals
        rw [ended]
        rintro ⟨⟩
  · have refused : verifyKernelSignature key d = .error .valueError := by
      simp only [verifyKernelSignature, length, ne_eq, not_false_eq_true, if_true]
      rfl
    rw [refused]
    rintro ⟨⟩

theorem verifyVaidAuthenticityGraded_ne_malformed (key : Bytes) {d : Dict} (shape : HasShape d) :
    verifyVaidAuthenticityGraded key d ≠ .error (.malformedDocument message) := by
  obtain ⟨u, shaped⟩ := (returns_requireVaidShape d "vaid").mpr shape
  unfold verifyVaidAuthenticityGraded
  rw [shaped, Raising.ok_bind]
  split_ifs
  · rintro ⟨⟩
  refine Raising.bind_ne_error (isValidTrustDomain_ne_malformed _) (fun valid _ => ?_)
  split_ifs
  · rintro ⟨⟩
  rw [Presented.kernelKeyThumbprint_excepting, Raising.ok_bind]
  cases (kernelKeyThumbprint key).toOption with
  | none => rintro ⟨⟩
  | some expected =>
    dsimp only
    split_ifs
    · rintro ⟨⟩
    refine Raising.bind_ne_error (verifyLineageHash_ne_malformed d) (fun consistent _ => ?_)
    split_ifs
    · rintro ⟨⟩
    refine Raising.bind_ne_error ?_ (fun ended _ => ?_)
    · unfold excepting
      cases checked : verifyKernelSignature key d with
      | ok ended => rintro ⟨⟩
      | error e =>
        dsimp only
        split_ifs
        · rintro ⟨⟩
        · rintro ⟨⟩
          exact verifyKernelSignature_ne_malformed key d checked
    · cases ended <;> rintro ⟨⟩

theorem isExpiredAt_ne_malformed (d : Dict) (now : UtcDatetime) :
    isExpiredAt d now ≠ .error (.malformedDocument message) := by
  unfold isExpiredAt
  refine Raising.bind_ne_error ?_ (fun expiresAt _ => ?_)
  · unfold parseRfc3339
    split
    · split
      · rintro ⟨⟩
      · rintro ⟨⟩
      · unfold utcDatetime
        split <;> rintro ⟨⟩
    · rintro ⟨⟩
  · cases expiresAt <;> rintro ⟨⟩

end Malformed

/-- What the bound verifier needs of a document that has the shape of one: that its authenticity can
be decided, and that the expiry of an authentic one is in range. -/
def CanStand (key : Bytes) (d : Dict) : Prop :=
  HasShape d → Sound (authenticityChecks key d) ∧
    (verifyVaidAuthenticityGraded key d = .ok .valid → HasFittingExpiry d)

/-- The bound verifier returns except where authenticity or the expiry raises. Nothing else about
the value matters, and nothing about the caller. -/
theorem returns_verifyVaidStandingBound (key : Bytes) (vaid : PyValue) (revocation : RevocationStatus)
    (expected : ExpectedCaller PyStr) (now : UtcDatetime) :
    Returns (verifyVaidStandingBound key vaid revocation expected now) ↔
      ∀ d, vaid = .obj d → CanStand key d := by
  cases vaid with
  | obj d =>
    simp only [Json.obj.injEq, forall_eq', CanStand]
    rw [verifyVaidStandingBound, verifyVaidStanding]
    by_cases shape : HasShape d
    · rw [← returns_authenticity]
      simp only [shape, true_imp_iff]
      cases authenticity : verifyVaidAuthenticityGraded key d with
      | error e =>
        refine iff_of_false ?_ (fun sound => Raising.not_returns_error e sound.1)
        cases e with
        | malformedDocument message =>
          exact absurd authenticity (verifyVaidAuthenticityGraded_ne_malformed key shape)
        | _ => exact Raising.not_returns_error _
      | ok verdict =>
        rw [and_iff_right (Raising.returns_ok verdict), Except.ok.injEq, Raising.ok_bind]
        by_cases valid : verdict = .valid
        · subst valid
          simp only [true_imp_iff, ← returns_isExpiredAt d now]
          have isValid : VaidVerdict.isValid .valid = true := rfl
          rw [isValid]
          cases expired : isExpiredAt d now with
          | error e =>
            refine iff_of_false ?_ (Raising.not_returns_error e)
            cases e with
            | malformedDocument message => exact absurd expired (isExpiredAt_ne_malformed d now)
            | _ => exact Raising.not_returns_error _
          | ok lapsed =>
            refine iff_of_true ?_ (Raising.returns_ok lapsed)
            cases lapsed with
            | true => exact Raising.returns_ok _
            | false =>
              cases Dict.get d "scope_boundary" with
              | arr boundary =>
                cases evaluable : boundaryIsEvaluable boundary with
                | true => exact ⟨_, by simp [evaluable]; rfl⟩
                | false => exact ⟨_, by simp [evaluable]; rfl⟩
              | _ => exact Raising.returns_ok _
        · have refused : verdict.isValid = false :=
            Bool.eq_false_iff.mpr (fun h => valid ((VaidVerdict.isValid_iff _).mp h))
          refine iff_of_true ?_ (fun same => absurd same valid)
          rw [refused]
          exact Raising.returns_ok _
    · refine iff_of_true ?_ (fun shaped => absurd shaped shape)
      have refused : ∃ message, requireVaidShape d "vaid" = .error (.malformedDocument message) := by
        have raises := mt (returns_requireVaidShape d "vaid").mp shape
        unfold requireVaidShape at raises ⊢
        split at raises
        · split at raises
          · exact absurd (Raising.returns_ok ()) raises
          · exact absurd (Raising.returns_ok ()) raises
          · exact ⟨_, rfl⟩
        · exact ⟨_, rfl⟩
      obtain ⟨message, malformed⟩ := refused
      have raised : verifyVaidAuthenticityGraded key d = .error (.malformedDocument message) := by
        rw [verifyVaidAuthenticityGraded, malformed]
        rfl
      rw [raised]
      exact Raising.returns_ok _
  | _ => exact iff_of_true (Raising.returns_ok _) (fun _ same => by cases same)

end VaidSuite.Python
