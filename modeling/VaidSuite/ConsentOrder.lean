import VaidSuite.Chain
import VaidSuite.Issuer

/-! The verdict on a cross-key hop against the order in which C.7 lists what its
consent must satisfy. -/
namespace VaidSuite

open Guards (firstRefusal)

/-- The instant so many seconds later, were there no first and no last one. -/
def Instant.shifted (self : Instant) (seconds : Int) : Instant :=
  let leaving := 1000000000 ≤ self.nanos ∧ seconds ≠ 0
  ⟨self.secs + seconds + (if leaving ∧ seconds < 0 then 1 else 0),
    if leaving then self.nanos - 1000000000 else self.nanos⟩

theorem Instant.addSeconds_eq (self : Instant) (seconds : Int) :
    self.addSeconds seconds =
      if (self.shifted seconds).secs < -8334601228800 ∨
          8210266876799 < (self.shifted seconds).secs then none
      else some (self.shifted seconds) := rfl

theorem Instant.addSeconds_eq_some {self later : Instant} {seconds : Int}
    (h : self.addSeconds seconds = some later) : later = self.shifted seconds := by
  rw [Instant.addSeconds_eq] at h
  split at h
  · cases h
  · exact (Option.some.inj h).symm

namespace ConsentAttestation

def namesParent (a : ConsentAttestation) (parent : Vaid) : Bool :=
  a.kernelKeyThumbprint == parent.kernelKeyThumbprint && a.trustDomain == parent.trustDomain

def namesChild (a : ConsentAttestation) (child : Vaid) : Bool :=
  a.childTrustDomain == child.trustDomain && a.childTenantId == child.tenantId.asStr

/-- Inside its window, on instants without a first one. -/
def currentAt (a : ConsentAttestation) (now : Instant) : Bool :=
  decide (a.issuedAt < a.expiresAt) && decide (now ≤ a.expiresAt) &&
    decide (a.issuedAt.shifted (-mintPopFreshnessSecs) ≤ now)

/-- The skew cannot be subtracted from the opening edge. -/
def windowOverflows (a : ConsentAttestation) (now : Instant) : Prop :=
  a.issuedAt < a.expiresAt ∧ now ≤ a.expiresAt ∧
    a.issuedAt.addSeconds (-mintPopFreshnessSecs) = none

def covers (a : ConsentAttestation) (child : Vaid) : Bool :=
  scopeAttenuatesWithin a.scopeBoundary child.scopeBoundary &&
    capsAttenuateWithin a.capabilitySet child.capabilitySet

def heldBy (a : ConsentAttestation) (parent : Vaid) : Bool :=
  scopeAttenuates parent a.scopeBoundary && capsAttenuate parent a.capabilitySet

theorem isCurrent_of_overflows {a : ConsentAttestation} {now : Instant}
    (overflows : a.windowOverflows now) : a.isCurrent now = none := by
  obtain ⟨opens, open_, early⟩ := overflows
  rw [isCurrent, if_neg (not_le.mpr opens), if_neg (not_lt.mpr open_), early]
  rfl

theorem isCurrent_of_not_overflows {a : ConsentAttestation} {now : Instant}
    (fits : ¬ a.windowOverflows now) : a.isCurrent now = some (a.currentAt now) := by
  unfold isCurrent currentAt
  by_cases opens : a.issuedAt < a.expiresAt
  · by_cases open_ : now ≤ a.expiresAt
    · rw [if_neg (not_le.mpr opens), if_neg (not_lt.mpr open_)]
      cases early : a.issuedAt.addSeconds (-mintPopFreshnessSecs) with
      | none => exact absurd ⟨opens, open_, early⟩ fits
      | some earliest => simp [opens, open_, Instant.addSeconds_eq_some early]
    · rw [if_neg (not_le.mpr opens), if_pos (not_le.mp open_)]
      simp [open_]
  · rw [if_pos (not_lt.mp opens)]
    simp [opens]

end ConsentAttestation

section Verifier

variable [Crypto] [Chrono]

/-- Signed under the key its own thumbprint resolves to. -/
def ConsentAttestation.verifies (keys : KernelKeyResolver) (a : ConsentAttestation) : Bool :=
  match keys a.kernelKeyThumbprint with
  | none => false
  | some key => verifyAttestationAuthenticity key a

/-- The verdict of the first requirement of C.7 that fails, on whatever is filed
for the hop. -/
def consentVerdict (keys : KernelKeyResolver) (now : Instant) (parent child : Vaid) :
    Option ConsentAttestation → ChainVerification
  | none => .inauthentic
  | some a => firstRefusal .attenuated
      [(a.namesParent parent, .inauthentic),
       (a.verifies keys, .inauthentic),
       (a.currentAt now, .consentExpired),
       (a.namesChild child, .notAttenuated),
       (a.covers child, .notAttenuated),
       (a.heldBy parent, .notAttenuated)]

/-- An attestation that names the wrong child is genuine and current, and the
window of one that is looked at does not overflow. -/
structure ReportsInOrder (keys : KernelKeyResolver) (now : Instant) (parent child : Vaid)
    (a : ConsentAttestation) : Prop where
  identity : a.namesParent parent = true → a.namesChild child = false →
    a.verifies keys = true ∧ a.currentAt now = true
  window : a.namesParent parent = true → a.namesChild child = true → a.verifies keys = true →
    ¬ a.windowOverflows now

theorem consentVerdict_some (keys : KernelKeyResolver) (now : Instant) (parent child : Vaid)
    (a : ConsentAttestation) :
    consentVerdict keys now parent child (some a) =
      if a.namesParent parent then
        if a.verifies keys then
          if a.currentAt now then
            if a.namesChild child then
              if a.covers child then
                if a.heldBy parent then .attenuated else .notAttenuated
              else .notAttenuated
            else .notAttenuated
          else .consentExpired
        else .inauthentic
      else .inauthentic := rfl

theorem verifyConsent_eq (keys : KernelKeyResolver) (now : Instant) (parent child : Vaid)
    (a : ConsentAttestation) :
    verifyConsent keys now parent child a =
      if a.namesParent parent = false then some .inauthentic
      else if a.namesChild child = false then some .notAttenuated
      else if a.verifies keys = false then some .inauthentic
      else match a.isCurrent now with
        | none => none
        | some false => some .consentExpired
        | some true =>
          if a.covers child = false then some .notAttenuated
          else if a.heldBy parent = false then some .notAttenuated
          else some .attenuated := by
  have parties : (a.kernelKeyThumbprint ≠ parent.kernelKeyThumbprint ∨
      a.trustDomain ≠ parent.trustDomain) ↔ a.namesParent parent = false := by
    simp [ConsentAttestation.namesParent, imp_iff_not_or]
  have identity : (a.childTrustDomain ≠ child.trustDomain ∨
      a.childTenantId ≠ child.tenantId.asStr) ↔ a.namesChild child = false := by
    simp [ConsentAttestation.namesChild, imp_iff_not_or]
  have covers : (!scopeAttenuatesWithin a.scopeBoundary child.scopeBoundary ||
      !capsAttenuateWithin a.capabilitySet child.capabilitySet) = true ↔
        a.covers child = false := by
    rw [ConsentAttestation.covers, ← Bool.not_and, Bool.not_eq_true']
  have held : (!scopeAttenuates parent a.scopeBoundary ||
      !capsAttenuate parent a.capabilitySet) = true ↔ a.heldBy parent = false := by
    rw [ConsentAttestation.heldBy, ← Bool.not_and, Bool.not_eq_true']
  unfold verifyConsent
  simp only [parties, identity, covers, held]
  cases resolved : keys a.kernelKeyThumbprint with
  | none => simp [ConsentAttestation.verifies, resolved]
  | some key =>
    rcases a.isCurrent now with _ | _ | _ <;>
      simp [ConsentAttestation.verifies, resolved]

/-- The hop is reported as C.7 orders it exactly when its condition holds. An
overflow alone is the panic of a hop whose consent may be complete. -/
theorem verifyConsent_cases (keys : KernelKeyResolver) (now : Instant) (parent child : Vaid)
    (a : ConsentAttestation) :
    (ReportsInOrder keys now parent child a ∧
      verifyConsent keys now parent child a = some (consentVerdict keys now parent child (some a))) ∨
    (¬ ReportsInOrder keys now parent child a ∧
      (verifyConsent keys now parent child a = none ∨
        verifyConsent keys now parent child a = some .notAttenuated ∧
        (consentVerdict keys now parent child (some a) = .inauthentic ∨
          consentVerdict keys now parent child (some a) = .consentExpired))) := by
  rw [verifyConsent_eq, consentVerdict_some]
  cases hparent : a.namesParent parent with
  | false => exact .inl ⟨⟨by simp [hparent], by simp [hparent]⟩, by simp⟩
  | true =>
    cases hchild : a.namesChild child with
    | false =>
      cases hverifies : a.verifies keys with
      | false =>
        exact .inr ⟨fun h => absurd (h.identity hparent hchild).1 (by simp [hverifies]),
          .inr ⟨by simp, .inl (by simp)⟩⟩
      | true =>
        cases hcurrent : a.currentAt now with
        | false =>
          exact .inr ⟨fun h => absurd (h.identity hparent hchild).2 (by simp [hcurrent]),
            .inr ⟨by simp, .inr (by simp)⟩⟩
        | true =>
          exact .inl ⟨⟨fun _ _ => ⟨hverifies, hcurrent⟩, by simp [hchild]⟩, by simp⟩
    | true =>
      cases hverifies : a.verifies keys with
      | false => exact .inl ⟨⟨by simp [hchild], by simp [hverifies]⟩, by simp⟩
      | true =>
        by_cases overflows : a.windowOverflows now
        · rw [ConsentAttestation.isCurrent_of_overflows overflows]
          exact .inr ⟨fun h => h.window hparent hchild hverifies overflows, .inl (by simp)⟩
        · rw [ConsentAttestation.isCurrent_of_not_overflows overflows]
          refine .inl ⟨⟨by simp [hchild], fun _ _ _ => overflows⟩, ?_⟩
          cases a.currentAt now <;> cases a.covers child <;> cases a.heldBy parent <;> simp

/-- What a hop must satisfy of its two documents alone. -/
structure HopContained (parent child : Vaid) : Prop where
  contained : Contained parent child
  tenant : parent.kernelKeyThumbprint = child.kernelKeyThumbprint →
    parent.trustDomain = child.trustDomain ∧ parent.tenantId = child.tenantId

def HopConsented (keys : KernelKeyResolver) (attestations : AttestationBundle) (now : Instant)
    (parent child : Vaid) : Prop :=
  parent.kernelKeyThumbprint ≠ child.kernelKeyThumbprint →
    consentVerdict keys now parent child (attestations.get parent.vaidId child.vaidId) = .attenuated

/-- The condition above, on a hop that needs consent and has some filed. -/
def HopReports (keys : KernelKeyResolver) (attestations : AttestationBundle) (now : Instant)
    (parent child : Vaid) : Prop :=
  parent.kernelKeyThumbprint ≠ child.kernelKeyThumbprint →
    ∀ a, attestations.get parent.vaidId child.vaidId = some a →
      ReportsInOrder keys now parent child a

/-- A chain with nothing to object to but its consents. -/
structure ContainedChain (keys : KernelKeyResolver) (leaf : Vaid) (bundle : PresentedBundle)
    (now : Instant) (ancestors : List Vaid) : Prop where
  leafAuthentic : AuthenticUnder keys leaf
  bundleAuthentic : ∀ doc ∈ bundle.items, AuthenticUnder keys doc
  presents : Presents bundle leaf ancestors
  distinct : ((leaf :: ancestors).map Vaid.vaidId).Nodup
  short : (leaf :: ancestors).length ≤ maxLineageDepth
  unexpired : ∀ ancestor ∈ ancestors, ancestor.isExpiredAt now = false
  hops : (leaf :: ancestors).reverse.IsChain HopContained

section Hops

variable {keys : KernelKeyResolver} {attestations : AttestationBundle} {now : Instant}

theorem verifyHop_of_contained {parent child : Vaid} (h : HopContained parent child) :
    verifyHop keys attestations now parent child =
      if parent.kernelKeyThumbprint = child.kernelKeyThumbprint then some .attenuated
      else match attestations.get parent.vaidId child.vaidId with
        | none => some .inauthentic
        | some attestation => verifyConsent keys now parent child attestation := by
  have tenant : ¬ (parent.kernelKeyThumbprint = child.kernelKeyThumbprint ∧
      (!tenantAttenuates parent child.trustDomain child.tenantId.asStr) = true) := by
    rintro ⟨same, refused⟩
    rw [(tenantAttenuates_iff parent child).mpr (h.tenant same)] at refused
    cases refused
  rw [verifyHop, if_neg tenant]
  cases attestations.get parent.vaidId child.vaidId <;>
    simp [h.contained.scope, h.contained.caps, h.contained.expiry]

theorem verifyHop_of_consented {parent child : Vaid} (contained : HopContained parent child)
    (consented : HopConsented keys attestations now parent child) :
    (HopReports keys attestations now parent child ∧
      verifyHop keys attestations now parent child = some .attenuated) ∨
    (¬ HopReports keys attestations now parent child ∧
      verifyHop keys attestations now parent child = none) := by
  rw [verifyHop_of_contained contained]
  by_cases same : parent.kernelKeyThumbprint = child.kernelKeyThumbprint
  · exact .inl ⟨fun cross => absurd same cross, if_pos same⟩
  · have complete := consented same
    rw [if_neg same]
    cases filed : attestations.get parent.vaidId child.vaidId with
    | none => rw [filed] at complete; cases complete
    | some a =>
      rw [filed] at complete
      rcases verifyConsent_cases keys now parent child a with ⟨inOrder, verdict⟩ | ⟨other, rest⟩
      · refine .inl ⟨fun _ b hb => ?_, verdict.trans (congrArg some complete)⟩
        cases filed.symm.trans hb
        exact inOrder
      · refine .inr ⟨fun h => other (h same a filed), ?_⟩
        rcases rest with panics | ⟨_, forged | stale⟩
        · exact panics
        · rw [complete] at forged; cases forged
        · rw [complete] at stale; cases stale

theorem verifyHop_of_unconsented {parent child : Vaid} (contained : HopContained parent child)
    (cross : parent.kernelKeyThumbprint ≠ child.kernelKeyThumbprint) :
    (HopReports keys attestations now parent child ∧
      verifyHop keys attestations now parent child = some (consentVerdict keys now parent child
        (attestations.get parent.vaidId child.vaidId))) ∨
    (¬ HopReports keys attestations now parent child ∧
      verifyHop keys attestations now parent child ≠ some .attenuated ∧
      verifyHop keys attestations now parent child ≠ some (consentVerdict keys now parent child
        (attestations.get parent.vaidId child.vaidId))) := by
  rw [verifyHop_of_contained contained, if_neg cross]
  cases filed : attestations.get parent.vaidId child.vaidId with
  | none => exact .inl ⟨fun _ a ha => absurd (filed.symm.trans ha) (by simp), rfl⟩
  | some a =>
    rcases verifyConsent_cases keys now parent child a with ⟨inOrder, verdict⟩ | ⟨other, rest⟩
    · refine .inl ⟨fun _ b hb => ?_, verdict⟩
      cases filed.symm.trans hb
      exact inOrder
    · refine .inr ⟨fun h => other (h cross a filed), ?_⟩
      dsimp only
      rcases rest with panics | ⟨refused, forged | stale⟩
      · simp [panics]
      · simp [refused, forged]
      · simp [refused, stale]

/-- Up to the first hop without consent, the verdict is that of C.7 exactly when
every hop is reported in order. -/
theorem verifyHops_eq_iff {before after : List Vaid} {parent child : Vaid}
    (contained : (before ++ parent :: child :: after).IsChain HopContained)
    (earlier : (before ++ [parent]).IsChain (HopConsented keys attestations now))
    (unconsented : ¬ HopConsented keys attestations now parent child) :
    verifyHops keys attestations now (before ++ parent :: child :: after) =
        some (consentVerdict keys now parent child
          (attestations.get parent.vaidId child.vaidId)) ↔
      (before ++ [parent, child]).IsChain (HopReports keys attestations now) := by
  obtain ⟨cross, unsatisfied⟩ := Classical.not_imp.mp unconsented
  induction before with
  | nil =>
    have here := (List.isChain_cons_cons.mp contained).1
    rw [List.nil_append, List.nil_append, List.isChain_pair, verifyHops]
    rcases verifyHop_of_unconsented here cross with
      ⟨inOrder, verdict⟩ | ⟨other, stops, differs⟩
    · rw [verdict]
      refine iff_of_true ?_ inOrder
      split
      · rename_i accepted
        exact absurd (Option.some.inj accepted) unsatisfied
      · rfl
    · refine iff_of_false ?_ other
      split
      · rename_i accepted
        exact absurd accepted stops
      · exact differs
  | cons doc before ih =>
    obtain ⟨next, rest, rest', rest'', heads⟩ : ∃ next rest rest' rest'',
        before ++ parent :: child :: after = next :: rest ∧ before ++ [parent] = next :: rest' ∧
          before ++ [parent, child] = next :: rest'' := by
      cases before with
      | nil => exact ⟨parent, _, _, _, rfl, rfl, rfl⟩
      | cons next before => exact ⟨next, _, _, _, rfl, rfl, rfl⟩
    rw [heads.1, heads.2.1, heads.2.2] at ih
    rw [List.cons_append, heads.1] at contained ⊢
    rw [List.cons_append, heads.2.1] at earlier
    obtain ⟨here, contained⟩ := List.isChain_cons_cons.mp contained
    obtain ⟨consented, earlier⟩ := List.isChain_cons_cons.mp earlier
    rw [List.cons_append, heads.2.2, List.isChain_cons_cons, ← ih contained earlier, verifyHops]
    rcases verifyHop_of_consented here consented with ⟨inOrder, verdict⟩ | ⟨other, panics⟩
    · rw [verdict]
      exact (and_iff_right inOrder).symm
    · rw [panics]
      exact iff_of_false (by simp) (fun h => other h.1)

end Hops

/-- The verdict on the first cross-key hop without complete consent is the one that
C.7 orders, exactly when an attestation for another child identity is genuine and
current and no window looked at up to there overflows. -/
theorem verifyChainAt_crossKey_iff (keys : KernelKeyResolver) (leaf : Vaid)
    (bundle : PresentedBundle) (attestations : AttestationBundle) (now : Instant)
    {ancestors before after : List Vaid} {parent child : Vaid}
    (chain : ContainedChain keys leaf bundle now ancestors)
    (hops : (leaf :: ancestors).reverse = before ++ parent :: child :: after)
    (earlier : (before ++ [parent]).IsChain (HopConsented keys attestations now))
    (unconsented : ¬ HopConsented keys attestations now parent child) :
    verifyChainAt keys leaf bundle attestations now =
        some (consentVerdict keys now parent child
          (attestations.get parent.vaidId child.vaidId)) ↔
      (before ++ [parent, child]).IsChain (HopReports keys attestations now) := by
  have unexpired : ¬ ancestors.any (fun ancestor => ancestor.isExpiredAt now) = true := by
    intro h
    obtain ⟨ancestor, member, expired⟩ := List.any_eq_true.mp h
    rw [chain.unexpired ancestor member] at expired
    cases expired
  rw [verifyChainAt_of_presents keys leaf bundle attestations now chain.leafAuthentic
    chain.bundleAuthentic chain.presents chain.distinct chain.short, if_neg unexpired, hops]
  exact verifyHops_eq_iff (hops ▸ chain.hops) earlier unconsented

end Verifier

section Example

local instance consentCrypto : Crypto := .standIn

local instance consentChrono : Chrono := .table [(1893459600, "2030-01-01T01:00:00Z")]

namespace ConsentOrder

def now : Instant := ⟨1893456000, 0⟩

def signer (seed : Bytes) : ReferenceIssuer InMemoryLineageStore InMemoryRevocationList :=
  .withKey ⟨seed⟩ 1 ⟨"vaid.example", isValidTrustDomain_example⟩

/-- A document for an hour, with no authority. -/
def issued (seed : Bytes) (id : Nat) (parent : Option VaidId) : Vaid :=
  (signer seed).signedVaid ⟨⟨.fromU128 id⟩, now, ⟨[2]⟩⟩
    ⟨⟨"researcher"⟩, "1.0.0", ⟨"acme"⟩, parent, [], []⟩ [2] ⟨1893459600, 0⟩

def parent : Vaid := issued [1] 1 none
def child : Vaid := issued [3] 2 (some parent.vaidId)

def keys : KernelKeyResolver := fun thumbprint =>
  if thumbprint = kernelKeyThumbprint [1] then some [1]
  else if thumbprint = kernelKeyThumbprint [3] then some [3] else none

/-- Consent to the child in a tenant, with no signature. -/
def forged (tenant : String) : ConsentAttestation where
  attVersion := 1
  parentVaid := parent.vaidId
  childVaid := child.vaidId
  childTrustDomain := "vaid.example"
  childTenantId := tenant
  issuedAt := now
  expiresAt := ⟨1893459600, 0⟩
  scopeBoundary := []
  capabilitySet := []
  trustDomain := "vaid.example"
  kernelKeyThumbprint := kernelKeyThumbprint [1]
  signature := []

theorem issued_authentic (seed : Bytes) (id : Nat) (parent : Option VaidId) :
    Authentic seed (issued seed id parent) := by
  show Authentic (signer seed).kernelPublicKey ((signer seed).signedVaid _ _ _ _)
  exact ReferenceIssuer.authentic_signedVaid Crypto.standIn_signaturesVerify _ _ _ _ _

theorem chain : ContainedChain keys child (PresentedBundle.new [parent]) now [parent] where
  leafAuthentic := ⟨[3], by decide +kernel, issued_authentic _ _ _⟩
  bundleAuthentic := by
    intro doc member
    rw [List.mem_singleton.mp member]
    exact ⟨[1], by decide +kernel, issued_authentic _ _ _⟩
  presents := .hop (ReferenceIssuer.parentVaid_signedVaid _ _ _ _ _) (Keyed.get_insert _ _)
    (.root (ReferenceIssuer.parentVaid_signedVaid _ _ _ _ _))
  distinct := by decide +kernel
  short := by decide
  unexpired := by decide +kernel
  hops := List.isChain_pair.mpr
    ⟨⟨by decide +kernel, by decide +kernel, by decide +kernel⟩, by decide +kernel⟩

theorem crossKey : parent.kernelKeyThumbprint ≠ child.kernelKeyThumbprint := by decide +kernel

theorem forged_filed (tenant : String) :
    AttestationBundle.get (.new [forged tenant]) parent.vaidId child.vaidId =
      some (forged tenant) :=
  Keyed.get_insert _ _

theorem forged_refused (tenant : String) : (forged tenant).verifies keys = false := by
  have resolved : keys (forged tenant).kernelKeyThumbprint = some [1] := by
    show keys (kernelKeyThumbprint [1]) = some [1]
    decide +kernel
  have unsigned : ∀ message, Crypto.ed25519Verify [1] message (forged tenant).signature = false :=
    fun _ => rfl
  simp only [ConsentAttestation.verifies, resolved, verifyAttestationAuthenticity, unsigned,
    ite_self]

theorem forged_verdict (tenant : String) :
    consentVerdict keys now parent child (some (forged tenant)) = .inauthentic := by
  have names : (forged tenant).namesParent parent = true := by
    have thumbprint : parent.kernelKeyThumbprint = kernelKeyThumbprint [1] := by decide +kernel
    have domain : parent.trustDomain = "vaid.example" := by decide +kernel
    simp [ConsentAttestation.namesParent, forged, thumbprint, domain]
  rw [consentVerdict_some, forged_refused, names]
  rfl

theorem forged_unconsented (tenant : String) :
    ¬ HopConsented keys (.new [forged tenant]) now parent child := by
  intro consented
  have complete := consented crossKey
  rw [forged_filed, forged_verdict] at complete
  cases complete

/-- A forged attestation for the child's own tenant is reported as forged. -/
theorem forged_inauthentic :
    verifyChainAt keys child (PresentedBundle.new [parent]) (.new [forged "acme"]) now =
      some .inauthentic := by
  have reported := (verifyChainAt_crossKey_iff keys child _ (.new [forged "acme"]) now chain
    (List.nil_append _).symm (.singleton _) (forged_unconsented "acme")).mpr ?_
  · rwa [forged_filed, forged_verdict] at reported
  · refine List.isChain_pair.mpr (fun _ a filed => ?_)
    cases (forged_filed "acme").symm.trans filed
    have names : (forged "acme").namesChild child = true := by decide +kernel
    exact ⟨fun _ other => absurd (names.symm.trans other) (by decide),
      fun _ _ verified => absurd ((forged_refused "acme").symm.trans verified) (by decide)⟩

/-- One that names another tenant is reported as an authority failure. -/
theorem forged_notAttenuated :
    ContainedChain keys child (PresentedBundle.new [parent]) now [parent] ∧
      parent.kernelKeyThumbprint ≠ child.kernelKeyThumbprint ∧
      AttestationBundle.get (.new [forged "other"]) parent.vaidId child.vaidId =
        some (forged "other") ∧
      (forged "other").verifies keys = false ∧
      verifyChainAt keys child (PresentedBundle.new [parent]) (.new [forged "other"]) now =
        some .notAttenuated := by
  have contained : HopContained parent child := List.isChain_pair.mp chain.hops
  have consent : verifyConsent keys now parent child (forged "other") = some .notAttenuated := by
    have names : (forged "other").namesParent parent = true := by decide +kernel
    have other : (forged "other").namesChild child = false := by decide +kernel
    rw [verifyConsent_eq, names, other]
    simp
  have hop : verifyHop keys (.new [forged "other"]) now parent child = some .notAttenuated := by
    rw [verifyHop_of_contained contained, if_neg crossKey, forged_filed]
    exact consent
  refine ⟨chain, crossKey, forged_filed "other", forged_refused "other", ?_⟩
  rw [verifyChainAt_of_presents keys child _ _ now chain.leafAuthentic chain.bundleAuthentic
    chain.presents chain.distinct chain.short, if_neg (by simp [chain.unexpired])]
  show verifyHops keys _ now [parent, child] = _
  rw [verifyHops, hop]

end ConsentOrder

end Example

end VaidSuite
