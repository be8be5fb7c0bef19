import VaidSuite.Lib.Returns
import VaidSuite.Python.A2aSpec
import VaidSuite.Python.AdkSpec

/-! When the A2A and the ADK verifier return: what each check needs of the presented
documents, of whatever members, and which checks are reached. -/
namespace VaidSuite.Python

open Raising (Returns Sound)

/-! ### What the document functions need -/

/-- What lineage assembly and the chain index into: a `vaid_id` that is text, and a parent
that is text or absent. -/
structure HasShape (d : Dict) : Prop where
  vaidId : ∃ c s, d.get "vaid_id" = .str (c :: s)
  parentVaid : d.get "parent_vaid" = .null ∨ ∃ s, d.get "parent_vaid" = .str s

theorem returns_requireVaidShape (d : Dict) (context : String) :
    Returns (requireVaidShape d context) ↔ HasShape d := by
  constructor
  · intro returned
    unfold requireVaidShape at returned
    split at returned
    · rename_i c s vaidId
      refine ⟨⟨c, s, vaidId⟩, ?_⟩
      cases parent : d.get "parent_vaid" with
      | null => exact .inl rfl
      | str t => exact .inr ⟨t, rfl⟩
      | _ =>
        rw [parent] at returned
        exact absurd returned (Raising.not_returns_error _)
    · exact absurd returned (Raising.not_returns_error _)
  · rintro ⟨⟨c, s, vaidId⟩, parent | ⟨t, parent⟩⟩
    · simp only [requireVaidShape, vaidId, parent]
      exact Raising.returns_ok ()
    · simp only [requireVaidShape, vaidId, parent]
      exact Raising.returns_ok ()

theorem returns_encode (s : PyStr) : Returns (encode s) ↔ Encodable s := by
  constructor
  · rintro ⟨b, encoded⟩
    unfold encode at encoded
    cases decodes : s.mapM CodePoint.toChar? with
    | none =>
      rw [decodes] at encoded
      cases encoded
    | some chars =>
      intro c member
      have decoded := List.mem_map_of_mem (f := CodePoint.toChar?) member
      rw [Raising.map_of_mapM decodes] at decoded
      obtain ⟨char, _, same⟩ := List.mem_map.mp decoded
      exact Option.isSome_of_eq_some same.symm
  · exact encode_ok

def HasTextDomain (d : Dict) : Prop := ∀ s, d.get "trust_domain" = .str s → Encodable s

theorem returns_isValidTrustDomain (d : Dict) :
    Returns (isValidTrustDomain (d.get "trust_domain")) ↔ HasTextDomain d := by
  unfold HasTextDomain
  cases d.get "trust_domain" with
  | str s =>
    simp only [isValidTrustDomain, Json.str.injEq, forall_eq']
    cases s with
    | nil => simp [Encodable]
    | cons c s =>
      rw [← returns_encode]
      cases encode (c :: s) <;> simp [Except.map]
  | _ => simp [isValidTrustDomain]

section Documents

variable [Libraries]

def lineageMaterial (d : Dict) : PyStr :=
  match d.get "parent_vaid" with
  | .null => py "GENESIS:" ++ format (d.get "agent_id")
  | parent => format parent ++ py ":" ++ format (d.get "agent_id")

/-- The lineage can be hashed, or there is no agent to hash it for. -/
def HasTextLineage (d : Dict) : Prop :=
  d.get "agent_id" = .null ∨ Encodable (lineageMaterial d)

theorem returns_verifyLineageHash (d : Dict) : Returns (verifyLineageHash d) ↔ HasTextLineage d := by
  unfold verifyLineageHash HasTextLineage
  split
  · rename_i absent
    simp [absent]
  · rename_i agentId present
    have hashed : Returns (computeLineageHash (d.get "parent_vaid") (d.get "agent_id")) ↔
        Encodable (lineageMaterial d) := by
      rw [← returns_encode]
      exact Raising.returns_bind_pure
    rw [Raising.returns_bind_pure, hashed]
    exact ⟨.inr, fun h => h.resolve_left present⟩

/-- `bytes(n)` neither overflows nor runs out of memory. -/
def FitsCount (n : Int) : Prop :=
  overflowsCount n = false ∧ (0 ≤ n → Libraries.fitsMemory n.toNat = true)

/-- A signature that is an integer, and so a count of bytes, is one that fits. -/
def HasFittingSignature (d : Dict) : Prop :=
  ∀ n : Int, d.get "kernel_signature" = .num (.int n) → FitsCount n

theorem of_toBytes_eq_error {v : PyValue} {e : PyException} (failed : toBytes v = .error e) :
    e ∈ [.valueError, .typeError] ∨
      e ∈ [.overflowError, .memoryError] ∧ ∃ n : Int, v = .num (.int n) ∧ ¬ FitsCount n := by
  cases v with
  | arr items =>
    obtain ⟨b, _, failed⟩ := Raising.of_mapM_eq_error failed
    refine .inl ?_
    unfold toByte at failed
    split at failed
    · split_ifs at failed
      cases failed
      simp
    · cases failed
    · cases failed
      simp
  | num n =>
    cases n with
    | int n =>
      rw [toBytes] at failed
      split_ifs at failed with overflows negative large
      · cases failed
        exact .inr ⟨by simp, n, rfl, fun fits => Bool.false_ne_true (fits.1.symm.trans overflows)⟩
      · cases failed
        simp
      · cases failed
        refine .inr ⟨by simp, n, rfl, fun fits => ?_⟩
        rw [fits.2 (not_lt.mp negative)] at large
        cases large
    | float b =>
      cases failed
      simp
  | bool b => cases failed
  | obj members =>
    cases members with
    | nil => cases failed
    | cons m members =>
      cases failed
      simp
  | _ =>
    cases failed
    simp

theorem fits_iff {v : PyValue} : (∀ n : Int, v = .num (.int n) → FitsCount n) ↔
    ∀ e, toBytes v = .error e → e ∈ [.valueError, .typeError] := by
  constructor
  · intro fits e failed
    rcases of_toBytes_eq_error failed with caught | ⟨_, n, rfl, escapes⟩
    · exact caught
    · exact absurd (fits n rfl) escapes
  · rintro caught n rfl
    rw [toBytes] at caught
    split_ifs at caught with overflows negative large
    · simpa using caught _ rfl
    · exact ⟨Bool.eq_false_iff.mpr overflows, fun natural => absurd natural (not_le.mpr negative)⟩
    · simpa using caught _ rfl
    · exact ⟨Bool.eq_false_iff.mpr overflows, fun _ => by simpa using large⟩

theorem ed25519Check_cases (key signature : Bytes) (d : Dict) :
    let checked := canonicalVaidSigningBytes d >>= ed25519Check key signature
    checked = .ok () ∨ checked = .error .valueError ∨ checked = .error .invalidSignature := by
  rw [canonicalVaidSigningBytes, dumps]
  cases Libraries.canonicalize (.obj (InsertionMap.set (py "kernel_signature") .null d)) with
  | none => exact .inr (.inl rfl)
  | some canonical =>
    by_cases verified : Libraries.ed25519Verify key signature (Libraries.sha256 canonical) = true
    · exact .inl (if_pos verified)
    · exact .inr (.inr (if_neg verified))

theorem verifyKernelSignature_eq {key : Bytes} (length : key.length = 32) (d : Dict) :
    verifyKernelSignature key d = d.item "kernel_signature" >>= fun v => toBytes v >>= fun signature =>
      canonicalVaidSigningBytes d >>= ed25519Check key signature := by
  simp [verifyKernelSignature, length]

theorem returns_verifyKernelSignature (key : Bytes) (d : Dict) :
    Returns (excepting [.invalidSignature, .valueError, .keyError, .typeError] (verifyKernelSignature key d)) ↔
      (key.length = 32 → HasFittingSignature d) := by
  by_cases length : key.length = 32
  · rw [verifyKernelSignature_eq length, Dict.item, HasFittingSignature, Dict.get]
    cases found : d.lookup (py "kernel_signature") with
    | none => simp [excepting]
    | some v =>
      simp only [Raising.ok_bind, Option.getD_some, length, true_imp_iff]
      cases read : toBytes v with
      | error e =>
        simp only [Raising.error_bind, excepting]
        rw [fits_iff, read]
        rcases of_toBytes_eq_error read with caught | ⟨escapes, _⟩
        · have listed : e ∈ [.invalidSignature, .valueError, .keyError, .typeError] := by
            rcases List.mem_pair.mp caught with rfl | rfl <;> simp
          rw [if_pos listed]
          refine iff_of_true ⟨none, rfl⟩ ?_
          rintro _ ⟨⟩
          exact caught
        · refine iff_of_false ?_ (fun caught => ?_)
          · rcases List.mem_pair.mp escapes with rfl | rfl <;> simp
          · rcases List.mem_pair.mp escapes with rfl | rfl <;> simpa using caught _ rfl
      | ok signature =>
        refine iff_of_true ?_ (fits_iff.mpr (by rw [read]; rintro _ ⟨⟩))
        rcases ed25519Check_cases key signature d with ended | ended | ended
        all_goals
          rw [Raising.ok_bind, ended]
          exact ⟨_, rfl⟩
  · have refused : verifyKernelSignature key d = .error .valueError := by
      simp only [verifyKernelSignature, length, ne_eq, not_false_eq_true, if_true]
      rfl
    rw [refused]
    exact iff_of_true ⟨none, rfl⟩ (fun same => absurd same length)

/-- An expiry that can be read falls in the years that a UTC `datetime` can hold. -/
def HasFittingExpiry (d : Dict) : Prop :=
  ∀ s, d.get "expires_at" = .str s → ∀ utcMicros, Libraries.fromisoformat s = some (.aware utcMicros) →
    0 ≤ utcMicros ∧ utcMicros < 315537897600000000

theorem returns_parseRfc3339 (d : Dict) :
    Returns (parseRfc3339 (d.get "expires_at")) ↔ HasFittingExpiry d := by
  unfold HasFittingExpiry
  cases d.get "expires_at" with
  | str s =>
    simp only [parseRfc3339, Json.str.injEq, forall_eq']
    cases Libraries.fromisoformat s with
    | none => simp
    | some datetime =>
      cases datetime with
      | naive => simp
      | aware utcMicros =>
        simp only [Option.some.injEq, Datetime.aware.injEq, forall_eq', utcDatetime]
        by_cases fits : 0 ≤ utcMicros ∧ utcMicros < 315537897600000000
        · simp [fits, Except.map]
        · rw [dif_neg fits]
          exact iff_of_false (Raising.not_returns_error _) fits
  | _ => simp [parseRfc3339]

theorem returns_isExpiredAt (d : Dict) (now : UtcDatetime) :
    Returns (isExpiredAt d now) ↔ HasFittingExpiry d := by
  rw [← returns_parseRfc3339, isExpiredAt, Raising.returns_bind_iff]
  constructor
  · rintro ⟨expiresAt, read, _⟩
    exact ⟨expiresAt, read⟩
  · rintro ⟨expiresAt, read⟩
    refine ⟨expiresAt, read, ?_⟩
    cases expiresAt <;> exact Raising.returns_pure _

def authenticityChecks (key : Bytes) (d : Dict) : List (Prop × Prop) :=
  [(HasShape d, pyEq (d.get "sig_version") (.num (.int vaidSigVersionV4)) = true),
    (HasTextDomain d, isValidTrustDomain (d.get "trust_domain") = .ok true),
    (True, ∃ t, kernelKeyThumbprint key = .ok t ∧ pyEq (d.get "kernel_key_thumbprint") (.str t) = true),
    (HasTextLineage d, verifyLineageHash d = .ok true),
    (key.length = 32 → HasFittingSignature d, True)]

theorem returns_authenticity (key : Bytes) (d : Dict) :
    Returns (verifyVaidAuthenticityGraded key d) ↔ Sound (authenticityChecks key d) := by
  simp only [authenticityChecks, Raising.sound_cons, ← returns_requireVaidShape d "vaid",
    ← returns_isValidTrustDomain, ← returns_verifyLineageHash, ← returns_verifyKernelSignature]
  unfold verifyVaidAuthenticityGraded
  rw [Raising.returns_seq_iff, Raising.returns_unless_iff (Raising.returns_pure _),
    Raising.returns_check_iff (Raising.returns_pure _)]
  refine and_congr_right (fun _ => forall_congr' (fun _ => and_congr_right (fun _ => forall_congr' (fun _ => ?_))))
  rw [Presented.kernelKeyThumbprint_excepting, Raising.ok_bind, true_and]
  cases derived : kernelKeyThumbprint key with
  | error e => simp [Except.toOption]
  | ok t =>
    simp only [Except.toOption, Except.ok.injEq, exists_eq_left']
    rw [Raising.returns_unless_iff (Raising.returns_pure _), Raising.returns_check_iff (Raising.returns_pure _)]
    refine forall_congr' (fun _ => and_congr_right (fun _ => forall_congr' (fun _ => ?_)))
    rw [Raising.returns_bind_iff]
    constructor
    · rintro ⟨ended, signature, _⟩
      exact ⟨⟨ended, signature⟩, fun _ => trivial⟩
    · rintro ⟨⟨ended, signature⟩, _⟩
      refine ⟨ended, signature, ?_⟩
      cases ended <;> exact Raising.returns_pure _

def CanAuthenticate (keys : KernelKeyResolver) (d : Dict) : Prop :=
  ∃ found, keys (d.get "kernel_key_thumbprint") = .ok found ∧
    ∀ key, found = some key → Sound (authenticityChecks key d)

theorem returns_authenticate (keys : KernelKeyResolver) (d : Dict) :
    Returns (authenticate keys d) ↔ CanAuthenticate keys d := by
  rw [authenticate, Raising.returns_bind_iff]
  refine exists_congr (fun found => and_congr_right (fun _ => ?_))
  cases found with
  | none => simp
  | some key =>
    simp only [Option.some.injEq, forall_eq', ← returns_authenticity]
    exact Raising.returns_bind_pure

omit [Libraries] in
theorem eq_of_pyEq_str {v : PyValue} {t : PyStr} (same : pyEq v (.str t) = true) : v = .str t := by
  cases v with
  | str s =>
    rw [pyEq_str, beq_iff_eq] at same
    rw [same]
  | _ =>
    unfold pyEq at same
    cases same

/-- What is known of the members of an authentic document. -/
structure Vetted (d : Dict) : Prop where
  shape : HasShape d
  thumbprint : ∃ t, d.get "kernel_key_thumbprint" = .str t
  trustDomain : ∃ s, d.get "trust_domain" = .str s

theorem vetted_of_valid {key : Bytes} {d : Dict} (valid : verifyVaidAuthenticityGraded key d = .ok .valid) :
    Vetted d := by
  obtain ⟨_, shape, valid⟩ := Raising.of_bind_eq_ok valid
  split at valid
  · cases valid
  · obtain ⟨domain, valid⟩ := Raising.of_unless_eq_ok valid nofun
    obtain ⟨derived, _, valid⟩ := Raising.of_bind_eq_ok valid
    cases derived with
    | none => cases valid
    | some t =>
      have trustDomain : ∃ s, d.get "trust_domain" = .str s := by
        cases claimed : d.get "trust_domain" with
        | str s => exact ⟨s, rfl⟩
        | _ =>
          rw [claimed] at domain
          cases domain
      have thumbprint : d.get "kernel_key_thumbprint" = .str t := by
        cases same : pyEq (d.get "kernel_key_thumbprint") (.str t) with
        | true => exact eq_of_pyEq_str same
        | false =>
          simp only [same] at valid
          cases valid
      exact ⟨(returns_requireVaidShape d "vaid").mp ⟨_, shape⟩, ⟨t, thumbprint⟩, trustDomain⟩

theorem vetted_of_authentic {keys : KernelKeyResolver} {d : Dict} (authentic : authenticate keys d = .ok true) :
    Vetted d := by
  obtain ⟨found, _, authentic⟩ := Raising.of_bind_eq_ok authentic
  cases found with
  | none => cases authentic
  | some key =>
    obtain ⟨verdict, graded, valid⟩ := Raising.of_bind_eq_ok authentic
    cases verdict with
    | valid => exact vetted_of_valid graded
    | _ => cases valid

/-! ### What a hop needs -/

omit [Libraries] in
def HasMember (d : Dict) (key : String) : Prop := (d.lookup (py key)).isSome = true

omit [Libraries] in
theorem item_eq {d : Dict} {key : String} (present : HasMember d key) : d.item key = .ok (d.get key) := by
  obtain ⟨v, found⟩ := Option.isSome_iff_exists.mp present
  rw [Dict.item, Dict.get, found]
  rfl

omit [Libraries] in
theorem returns_item (d : Dict) (key : String) : Returns (d.item key) ↔ HasMember d key := by
  constructor
  · rintro ⟨v, found⟩
    unfold Dict.item at found
    split at found
    · rename_i w present
      exact Option.isSome_of_eq_some present
    · cases found
  · exact fun present => ⟨_, item_eq present⟩

omit [Libraries] in
theorem hasMember_of_get {d : Dict} {key : String} (present : d.get key ≠ .null) : HasMember d key := by
  unfold HasMember
  cases found : d.lookup (py key) with
  | some v => rfl
  | none =>
    rw [Dict.get, found] at present
    exact absurd rfl present

omit [Libraries] in
def isIterable : PyValue → Bool
  | .arr _ | .obj _ | .str _ => true
  | .null | .bool _ | .num _ => false

omit [Libraries] in
theorem returns_iter (v : PyValue) : Returns (iter v) ↔ isIterable v = true := by
  cases v <;> simp [iter, isIterable]

omit [Libraries] in
/-- Is `item in container` a question that is answered? -/
def canContain (container item : PyValue) : Bool :=
  match container with
  | .arr _ => true
  | .obj _ => hashable item
  | .str _ => isStr item
  | .null | .bool _ | .num _ => false

omit [Libraries] in
theorem returns_contains (container item : PyValue) :
    Returns (contains container item) ↔ canContain container item = true := by
  cases container with
  | obj members => cases h : hashable item <;> simp [contains, canContain, h]
  | str s => cases item <;> simp [contains, canContain, isStr, Json.asStr]
  | _ => simp [contains, canContain]

omit [Libraries] in
/-- The capabilities of both sides can be compared: there are some to compare on each, and each of
the child's, up to the first that the parent lacks, can be looked for. -/
def CapsComparable (parent child : Dict) : Prop :=
  HasMember child "capability_set" ∧ HasMember parent "capability_set" ∧
    isIterable (child.get "capability_set") = true ∧
    ∀ caps, iter (child.get "capability_set") = .ok caps → Sound (caps.map (fun c =>
      (canContain (parent.get "capability_set") c = true, contains (parent.get "capability_set") c = .ok true)))

omit [Libraries] in
theorem returns_capsAttenuate (parent child : Dict) :
    Returns (child.item "capability_set" >>= capsAttenuate parent) ↔ CapsComparable parent child := by
  constructor
  · intro returned
    obtain ⟨_, childCaps, returned⟩ := Raising.returns_bind_iff.mp returned
    obtain ⟨_, parentCaps, returned⟩ := Raising.returns_bind_iff.mp returned
    have inChild := (returns_item child "capability_set").mp ⟨_, childCaps⟩
    have inParent := (returns_item parent "capability_set").mp ⟨_, parentCaps⟩
    rw [item_eq inChild, Except.ok.injEq] at childCaps
    rw [item_eq inParent, Except.ok.injEq] at parentCaps
    subst childCaps parentCaps
    obtain ⟨caps, iterates, returned⟩ := Raising.returns_bind_iff.mp returned
    refine ⟨inChild, inParent, (returns_iter _).mp ⟨caps, iterates⟩, fun caps' same => ?_⟩
    rw [iterates, Except.ok.injEq] at same
    subst same
    rw [Raising.returns_allM_iff] at returned
    exact (Raising.sound_map_congr (fun c _ => returns_contains _ c)).mp returned
  · rintro ⟨inChild, inParent, iterable, comparable⟩
    obtain ⟨caps, iterates⟩ := (returns_iter _).mpr iterable
    rw [item_eq inChild, Raising.ok_bind, capsAttenuate, item_eq inParent, Raising.ok_bind,
      capsAttenuateWithin, iterates, Raising.ok_bind, Raising.returns_allM_iff]
    exact (Raising.sound_map_congr (fun c _ => returns_contains _ c)).mpr (comparable caps iterates)

omit [Libraries] in
def SameKey (parent child : Dict) : Prop :=
  pyEq (parent.get "kernel_key_thumbprint") (child.get "kernel_key_thumbprint") = true

omit [Libraries] in
/-- Under one key, the child names a tenant, and so does a parent of the same trust domain. -/
def TenantsComparable (parent child : Dict) : Prop :=
  SameKey parent child → HasMember child "tenant_id" ∧
    (pyEq (parent.get "trust_domain") (child.get "trust_domain") = true → HasMember parent "tenant_id")

omit [Libraries] in
def TenantHolds (parent child : Dict) : Prop :=
  SameKey parent child → tenantAttenuates parent (child.get "trust_domain") (child.get "tenant_id") = .ok true

omit [Libraries] in
/-- The checks of a hop that need something, for authentic documents with readable boundaries and
expiries. -/
def hopChecks (parent child : Dict) : List (Prop × Prop) :=
  [(TenantsComparable parent child, TenantHolds parent child),
    (True, scopeAttenuates parent (child.get "scope_boundary") = .ok true),
    (CapsComparable parent child, True)]

/-- What is known of a document when its hops are verified. -/
structure Ready (d : Dict) : Prop extends Vetted d where
  boundary : hasEvaluableBoundary d = true
  expiry : HasFittingExpiry d

omit [Libraries] in
theorem boundary_arr {d : Dict} (boundary : hasEvaluableBoundary d = true) :
    ∃ entries, d.get "scope_boundary" = .arr entries := by
  unfold hasEvaluableBoundary at boundary
  split at boundary
  · rename_i entries listed
    exact ⟨entries, listed⟩
  · cases boundary

variable {parent child : Dict}

theorem Ready.item_thumbprint (ready : Ready parent) :
    parent.item "kernel_key_thumbprint" = .ok (parent.get "kernel_key_thumbprint") := by
  obtain ⟨t, claimed⟩ := ready.thumbprint
  exact item_eq (hasMember_of_get (by rw [claimed]; exact nofun))

theorem Ready.item_trustDomain (ready : Ready parent) :
    parent.item "trust_domain" = .ok (parent.get "trust_domain") := by
  obtain ⟨s, claimed⟩ := ready.trustDomain
  exact item_eq (hasMember_of_get (by rw [claimed]; exact nofun))

theorem Ready.item_boundary (ready : Ready parent) :
    parent.item "scope_boundary" = .ok (parent.get "scope_boundary") := by
  obtain ⟨entries, listed⟩ := boundary_arr ready.boundary
  exact item_eq (hasMember_of_get (by rw [listed]; exact nofun))

theorem Ready.item_vaidId (ready : Ready parent) :
    parent.item "vaid_id" = .ok (parent.get "vaid_id") := by
  obtain ⟨c, s, named⟩ := ready.shape.vaidId
  exact item_eq (hasMember_of_get (by rw [named]; exact nofun))

theorem returns_scopeAttenuates (readyParent : Ready parent) (readyChild : Ready child) :
    Returns (scopeAttenuates parent (child.get "scope_boundary")) := by
  obtain ⟨ps, listed⟩ := boundary_arr readyParent.boundary
  obtain ⟨cs, listed'⟩ := boundary_arr readyChild.boundary
  rw [scopeAttenuates, readyParent.item_boundary, Raising.ok_bind, listed, listed', scopeAttenuatesWithin_arr]
  exact Raising.returns_ok _

theorem returns_expiryAttenuates (readyParent : Ready parent) (readyChild : Ready child) :
    Returns (expiryAttenuates parent (child.get "expires_at")) := by
  obtain ⟨p, readP⟩ := (returns_parseRfc3339 parent).mpr readyParent.expiry
  obtain ⟨c, readC⟩ := (returns_parseRfc3339 child).mpr readyChild.expiry
  rw [expiryAttenuates, readP, readC]
  cases p <;> cases c <;> exact ⟨_, rfl⟩

theorem returns_tenantAttenuates (readyParent : Ready parent) (readyChild : Ready child) :
    Returns (child.item "trust_domain" >>= fun a => child.item "tenant_id" >>= tenantAttenuates parent a) ↔
      HasMember child "tenant_id" ∧
        (pyEq (parent.get "trust_domain") (child.get "trust_domain") = true → HasMember parent "tenant_id") := by
  rw [readyChild.item_trustDomain, Raising.ok_bind]
  constructor
  · intro returned
    obtain ⟨tenant, found, returned⟩ := Raising.returns_bind_iff.mp returned
    refine ⟨(returns_item child "tenant_id").mp ⟨_, found⟩, fun same => ?_⟩
    rw [tenantAttenuates, readyParent.item_trustDomain, Raising.ok_bind, if_pos same,
      Raising.returns_bind_pure] at returned
    exact (returns_item parent "tenant_id").mp returned
  · rintro ⟨inChild, inParent⟩
    rw [item_eq inChild, Raising.ok_bind, tenantAttenuates, readyParent.item_trustDomain, Raising.ok_bind]
    split
    · rename_i same
      exact Raising.returns_bind_pure.mpr ((returns_item parent "tenant_id").mpr (inParent same))
    · exact Raising.returns_pure _

def hopTenants (parent child : Dict) : Raises Bool :=
  if pyEq (parent.get "kernel_key_thumbprint") (child.get "kernel_key_thumbprint") then
    child.item "trust_domain" >>= fun domain => child.item "tenant_id" >>= tenantAttenuates parent domain
  else pure true

theorem returns_hopTenants (readyParent : Ready parent) (readyChild : Ready child) :
    Returns (hopTenants parent child) ↔ TenantsComparable parent child := by
  unfold hopTenants TenantsComparable SameKey
  split
  · rename_i same
    rw [returns_tenantAttenuates readyParent readyChild]
    exact ⟨fun h _ => h, fun h => h same⟩
  · rename_i other
    exact iff_of_true (Raising.returns_pure true) (fun same => absurd same other)

theorem hopTenants_eq_true (readyChild : Ready child) (comparable : TenantsComparable parent child) :
    hopTenants parent child = .ok true ↔ TenantHolds parent child := by
  unfold hopTenants TenantHolds SameKey
  by_cases same : pyEq (parent.get "kernel_key_thumbprint") (child.get "kernel_key_thumbprint") = true
  · rw [if_pos same, readyChild.item_trustDomain, Raising.ok_bind, item_eq (comparable same).1, Raising.ok_bind]
    exact ⟨fun h _ => h, fun h => h same⟩
  · rw [if_neg same]
    exact iff_of_true rfl (fun h => absurd h same)

theorem returns_verifyHop (keys : KernelKeyResolver) (now : UtcDatetime) (readyParent : Ready parent)
    (readyChild : Ready child) :
    Returns (verifyHop keys .empty now parent child) ↔ Sound (hopChecks parent child) := by
  unfold verifyHop
  rw [readyParent.item_thumbprint, Raising.ok_bind, readyChild.item_thumbprint, Raising.ok_bind]
  change Returns (hopTenants parent child >>= fun holds => if (!holds) = true then _ else _) ↔ _
  rw [Raising.returns_check_iff (Raising.returns_pure _), returns_hopTenants readyParent readyChild]
  refine and_congr_right (fun comparable => imp_congr (hopTenants_eq_true readyChild comparable) ?_)
  rw [readyChild.item_boundary, Raising.ok_bind, Raising.returns_check_iff (Raising.returns_pure _)]
  refine and_congr (iff_of_true (returns_scopeAttenuates readyParent readyChild) trivial)
    (forall_congr' (fun _ => ?_))
  rw [← bind_assoc, Raising.returns_check_iff (Raising.returns_pure _), returns_capsAttenuate]
  refine and_congr_right (fun _ => iff_of_true (fun _ => ?_) (fun _ => trivial))
  obtain ⟨contained, decided⟩ := returns_expiryAttenuates readyParent readyChild
  rw [decided, Raising.ok_bind, Raising.returns_unless_iff (Raising.returns_pure _)]
  intro _
  split
  · exact Raising.returns_pure _
  · rw [readyParent.item_vaidId, Raising.ok_bind, readyChild.item_vaidId, Raising.ok_bind]
    exact Raising.returns_pure _

/-! ### What a chain needs -/

omit [Libraries] in
theorem returns_new (documents : List Dict) :
    Returns (PresentedBundle.new documents) ↔ ∀ d ∈ documents, HasShape d := by
  rw [PresentedBundle.new, Raising.returns_bind_pure, Raising.returns_mapM_iff]
  exact forall₂_congr (fun d _ => returns_requireVaidShape d "presented document")

omit [Libraries] in
theorem new_eq {documents : List Dict} (shaped : ∀ d ∈ documents, HasShape d) :
    PresentedBundle.new documents = .ok (InsertionMap.ofList vaidIdOf documents) := by
  obtain ⟨bundle, made⟩ := (returns_new documents).mpr shaped
  rw [made]
  obtain ⟨_, _, made⟩ := Raising.of_bind_eq_ok made
  cases made
  rfl

def hopRuns (keys : KernelKeyResolver) (now : UtcDatetime) : List Dict → List (Prop × Prop)
  | parent :: child :: rest =>
    (Sound (hopChecks parent child), verifyHop keys .empty now parent child = .ok .attenuated) ::
      hopRuns keys now (child :: rest)
  | _ => []

theorem returns_verifyHops (keys : KernelKeyResolver) (now : UtcDatetime) {docs : List Dict}
    (ready : ∀ d ∈ docs, Ready d) :
    Returns (verifyHops keys .empty now docs) ↔ Sound (hopRuns keys now docs) := by
  fun_induction hopRuns keys now docs with
  | case1 parent child rest ih =>
    rw [List.forall_mem_cons] at ready
    rw [verifyHops, Raising.sound_cons, ← ih ready.2,
      ← returns_verifyHop keys now ready.1 (ready.2 child List.mem_cons_self)]
    cases verifyHop keys .empty now parent child with
    | error e => simp
    | ok verdict => cases verdict <;> simp
  | case2 docs other =>
    refine iff_of_true ?_ trivial
    rcases docs with _ | ⟨parent, _ | ⟨child, rest⟩⟩
    · exact Raising.returns_pure _
    · exact Raising.returns_pure _
    · exact (other parent child rest rfl).elim

omit [Libraries] in
/-- The documents of the assembled lineage, root first. -/
def lineageDocs (leaf : Dict) (bundle : PresentedBundle) : Option (List Dict) :=
  (assembleLoop bundle.resolveParent maxLineageDepth [vaidIdOf leaf] (parentOf leaf)).bind
    (fun ids => ids.mapM (chainDoc leaf bundle))

omit [Libraries] in
theorem endsWith_assembleLoop {resolveParent : LineageResolver} {fuel : Nat} {first : PyStr}
    {chain : List PyStr} {next : Option PyStr} {ids : List PyStr}
    (assembled : assembleLoop resolveParent fuel (first :: chain) next = some ids) :
    ∃ before, ids = before ++ [first] := by
  induction fuel generalizing chain next with
  | zero =>
    cases next with
    | none =>
      cases assembled
      exact ⟨chain.reverse, List.reverse_cons⟩
    | some parent => cases assembled
  | succ fuel ih =>
    cases next with
    | none =>
      cases assembled
      exact ⟨chain.reverse, List.reverse_cons⟩
    | some parent =>
      rw [assembleLoop] at assembled
      split_ifs at assembled with stop
      cases resolved : resolveParent parent with
      | unknown =>
        rw [resolved] at assembled
        cases assembled
      | root =>
        rw [resolved] at assembled
        exact ih assembled
      | parent grandparent =>
        rw [resolved] at assembled
        exact ih assembled

omit [Libraries] in
theorem endsWith_lineageDocs {leaf : Dict} {bundle : PresentedBundle} {docs : List Dict}
    (assembled : lineageDocs leaf bundle = some docs) : ∃ ancestors, docs = ancestors ++ [leaf] := by
  obtain ⟨ids, names, assembled⟩ := Option.bind_eq_some_iff.mp assembled
  obtain ⟨before, rfl⟩ := endsWith_assembleLoop names
  rw [List.mapM_append] at assembled
  obtain ⟨ancestors, _, assembled⟩ := Option.bind_eq_some_iff.mp assembled
  have itself : [vaidIdOf leaf].mapM (chainDoc leaf bundle) = some [leaf] := by
    rw [List.mapM_cons, chainDoc, if_pos rfl]
    rfl
  rw [itself] at assembled
  cases assembled
  exact ⟨ancestors, rfl⟩

omit [Libraries] in
theorem mem_lineageDocs {leaf : Dict} {bundle : PresentedBundle} {docs : List Dict}
    (assembled : lineageDocs leaf bundle = some docs) : ∀ d ∈ docs, d ∈ leaf :: bundle.documents := by
  obtain ⟨ids, _, assembled⟩ := Option.bind_eq_some_iff.mp assembled
  intro d member
  have named := List.mem_map_of_mem (f := some) member
  rw [← Raising.map_of_mapM assembled] at named
  obtain ⟨id, _, named⟩ := List.mem_map.mp named
  unfold chainDoc at named
  split_ifs at named with itself
  · cases named
    exact List.mem_cons_self
  · exact List.mem_cons_of_mem _ (List.mem_map_of_mem (InsertionMap.mem_of_lookup named))

/-- The checks of a chain whose leaf has passed: the presented documents' authenticity, the lapse of
the ancestors, and the hops. -/
def chainRuns (keys : KernelKeyResolver) (now : UtcDatetime) (leaf : Dict) (bundle : PresentedBundle) :
    List (Prop × Prop) :=
  [(Sound (bundle.documents.map (fun d => (CanAuthenticate keys d, authenticate keys d = .ok true))),
      ∀ d ∈ bundle.documents, authenticate keys d = .ok true),
    (∀ docs, lineageDocs leaf bundle = some docs →
      Sound (docs.dropLast.map (fun a => (HasFittingExpiry a, isExpiredAt a now = .ok false)) ++
        hopRuns keys now docs), True)]

omit [Libraries] in
theorem assembleLineage_eq {leaf : Dict} (shape : HasShape leaf) (resolveParent : LineageResolver) :
    assembleLineage leaf resolveParent =
      .ok (assembleLoop resolveParent maxLineageDepth [vaidIdOf leaf] (parentOf leaf)) := by
  obtain ⟨_, shaped⟩ := (returns_requireVaidShape leaf "leaf").mpr shape
  rw [assembleLineage, shaped]
  rfl

theorem ready_lineageDocs {keys : KernelKeyResolver} {leaf : Dict} {bundle : PresentedBundle}
    {now : UtcDatetime} (ready : Ready leaf)
    (evaluable : ∀ d ∈ bundle.documents, hasEvaluableBoundary d = true)
    (authentic : ∀ d ∈ bundle.documents, authenticate keys d = .ok true) {docs : List Dict}
    (assembled : lineageDocs leaf bundle = some docs)
    (unlapsed : ∀ a ∈ docs.dropLast, isExpiredAt a now = .ok false) : ∀ d ∈ docs, Ready d := by
  obtain ⟨ancestors, rfl⟩ := endsWith_lineageDocs assembled
  rw [List.dropLast_concat] at unlapsed
  intro d member
  rcases List.mem_cons.mp (mem_lineageDocs assembled d member) with rfl | presented
  · exact ready
  · rcases List.mem_append.mp member with ancestor | itself
    · exact ⟨vetted_of_authentic (authentic d presented), evaluable d presented,
        (returns_isExpiredAt d now).mp ⟨_, unlapsed d ancestor⟩⟩
    · rw [List.mem_singleton.mp itself]
      exact ready

theorem returns_verifyChainAt {keys : KernelKeyResolver} {leaf : Dict} {bundle : PresentedBundle}
    {now : UtcDatetime} (ready : Ready leaf) (leafAuthentic : authenticate keys leaf = .ok true)
    (evaluable : ∀ d ∈ bundle.documents, hasEvaluableBoundary d = true) :
    Returns (verifyChainAt keys leaf bundle .empty now) ↔ Sound (chainRuns keys now leaf bundle) := by
  obtain ⟨_, shaped⟩ := (returns_requireVaidShape leaf "leaf").mpr ready.shape
  rw [verifyChainAt, shaped, Raising.ok_bind, leafAuthentic, Raising.ok_bind, Bool.not_true, if_neg nofun,
    Raising.returns_check_iff (Raising.returns_pure _), Raising.returns_allM_iff, Raising.allM_eq_true_iff,
    chainRuns, Raising.sound_cons, Raising.sound_cons,
    Raising.sound_map_congr (fun d _ => returns_authenticate keys d)]
  refine and_congr_right (fun _ => forall_congr' (fun authentic => ?_))
  rw [assembleLineage_eq ready.shape, Raising.ok_bind]
  cases names : assembleLoop bundle.resolveParent maxLineageDepth [vaidIdOf leaf] (parentOf leaf) with
  | none => simp [lineageDocs, names]
  | some ids =>
    cases resolved : ids.mapM (chainDoc leaf bundle) with
    | none => simp [lineageDocs, names, resolved]
    | some docs =>
      have assembled : lineageDocs leaf bundle = some docs := by
        rw [lineageDocs, names, Option.bind_some, resolved]
      simp only [resolved, assembled, Option.some.injEq, forall_eq', Raising.sound_nil, implies_true, and_true]
      rw [Raising.returns_lapse_iff (Raising.returns_pure _), Raising.sound_append, Raising.returns_anyM_iff,
        Raising.anyM_eq_false_iff, List.forall_mem_map,
        Raising.sound_map_congr (fun a _ => returns_isExpiredAt a now)]
      exact and_congr_right (fun _ => forall_congr' (fun unlapsed => returns_verifyHops keys now
        (ready_lineageDocs ready evaluable authentic assembled unlapsed)))

end Documents

end VaidSuite.Python
