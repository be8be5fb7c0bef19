import VaidSuite.Document

/-! The containment predicates that the mint refuses on and the chain verifier
recomputes: scope, capabilities, tenant and expiry. -/
namespace VaidSuite

/-- Freshness window of a mint proof-of-possession, in seconds. -/
def mintPopFreshnessSecs : Int := 300

inductive AttenuationReason where
  | attenuated
  | scopeEscalation
  | unknownScopeKind
  deriving DecidableEq, Repr

/-- The attenuation rule. Both sides must be readable, and an unrestricted child
needs an unrestricted parent. -/
def scopeAttenuationReason (parentScope childScope : List ScopeBoundaryEntry) :
    AttenuationReason :=
  if !boundaryIsEvaluable parentScope || !boundaryIsEvaluable childScope then .unknownScopeKind
  else
    let attenuates :=
      if childScope.isEmpty then parentScope.isEmpty
      else childScope.all (fun child => (entryClaimedResource child).any (scopeContains parentScope))
    if attenuates then .attenuated else .scopeEscalation

def scopeAttenuatesWithin (parentScope childScope : List ScopeBoundaryEntry) : Bool :=
  scopeAttenuationReason parentScope childScope == .attenuated

def scopeAttenuates (parent : Vaid) (childScope : List ScopeBoundaryEntry) : Bool :=
  scopeAttenuatesWithin parent.scopeBoundary childScope

/-- Tenant containment, as the pair `(trust_domain, tenant_id)`. -/
def tenantAttenuates (parent : Vaid) (childTrustDomain childTenant : String) : Bool :=
  parent.trustDomain == childTrustDomain && parent.tenantId.asStr == childTenant

def capsAttenuateWithin (parentCaps childCaps : List String) : Bool :=
  childCaps.all (fun c => capsContain parentCaps c)

def capsAttenuate (parent : Vaid) (childCaps : List String) : Bool :=
  capsAttenuateWithin parent.capabilitySet childCaps

/-- Over parsed instants. An unreadable or absent expiry is not contained. -/
def expiryAttenuatesWithin [Chrono] (parentExpiresAt : String) (childExpiresAt : Option String) :
    Bool :=
  match Chrono.parseFromRfc3339 parentExpiresAt, childExpiresAt.bind Chrono.parseFromRfc3339 with
  | some parent, some child => decide (child ≤ parent)
  | _, _ => false

def expiryAttenuates [Chrono] (parent : Vaid) (childExpiresAt : Option String) : Bool :=
  expiryAttenuatesWithin parent.expiresAtAsPresented childExpiresAt

def reasonOf {β : Type} (covers : β → β → Bool) : Option (List β) → Option (List β) →
    AttenuationReason
  | some parents, some children =>
    if Containment.attenuates covers parents children then .attenuated else .scopeEscalation
  | _, _ => .unknownScopeKind

theorem reasonOf_some {β : Type} (covers : β → β → Bool) (parents children : List β) :
    (reasonOf covers (some parents) (some children) == .attenuated) =
      Containment.attenuates covers parents children := by
  have pick : ∀ b : Bool, ((if b = true then AttenuationReason.attenuated
      else .scopeEscalation) == .attenuated) = b := by decide
  exact pick _

theorem scopeAttenuationReason_eq (parentScope childScope : List ScopeBoundaryEntry) :
    scopeAttenuationReason parentScope childScope =
      reasonOf prefixContains (claimedResources parentScope) (claimedResources childScope) := by
  simp only [scopeAttenuationReason, boundaryIsEvaluable_eq]
  cases hp : claimedResources parentScope with
  | none => rfl
  | some ps =>
    cases hc : claimedResources childScope with
    | none => rfl
    | some cs =>
      have contains : scopeContains parentScope = Containment.within prefixContains ps := by
        funext r
        rw [scopeContains_eq, hp]
      exact congrArg (fun b : Bool => if b = true then AttenuationReason.attenuated
        else .scopeEscalation) (Containment.claims_attenuate hp hc contains)

/-- The rule is the attenuation of prefix unions, and refuses a boundary it
cannot read on either side. -/
theorem scopeAttenuatesWithin_eq (parentScope childScope : List ScopeBoundaryEntry) :
    scopeAttenuatesWithin parentScope childScope =
      match claimedResources parentScope, claimedResources childScope with
      | some ps, some cs => Containment.attenuates prefixContains ps cs
      | _, _ => false := by
  rw [scopeAttenuatesWithin, scopeAttenuationReason_eq]
  cases claimedResources parentScope with
  | none => rfl
  | some ps =>
    cases claimedResources childScope with
    | none => rfl
    | some cs => exact reasonOf_some prefixContains ps cs

theorem scopeContains_of_attenuates {parentScope childScope : List ScopeBoundaryEntry}
    (attenuated : scopeAttenuatesWithin parentScope childScope = true) {resource : String}
    (held : scopeContains childScope resource = true) :
    scopeContains parentScope resource = true := by
  rw [scopeAttenuatesWithin_eq] at attenuated
  rw [scopeContains_eq] at held ⊢
  split at attenuated
  · rename_i ps cs hp hc
    simp only [hp, hc] at held ⊢
    exact Containment.within_trans prefixContains_trans attenuated held
  · cases attenuated

theorem scopeAttenuatesWithin_trans {a b c : List ScopeBoundaryEntry}
    (hab : scopeAttenuatesWithin a b = true) (hbc : scopeAttenuatesWithin b c = true) :
    scopeAttenuatesWithin a c = true := by
  rw [scopeAttenuatesWithin_eq] at hab hbc ⊢
  split at hab
  · rename_i ps qs ha hb
    split at hbc
    · rename_i qs' cs hb' hc
      cases hb.symm.trans hb'
      simp only [ha, hc]
      exact Containment.attenuates_trans prefixContains_trans hab hbc
    · cases hbc
  · cases hab

theorem prefixContains_refl (p : String) : prefixContains p p = true := by
  rw [prefixContains_eq]
  exact Containment.segmentPrefix_refl _ _

theorem scopeAttenuationReason_eq_attenuated_iff (parentScope childScope : List ScopeBoundaryEntry) :
    scopeAttenuationReason parentScope childScope = .attenuated ↔
      scopeAttenuatesWithin parentScope childScope = true :=
  beq_iff_eq.symm

theorem scopeAttenuatesWithin_refl {boundary : List ScopeBoundaryEntry}
    (readable : boundaryIsEvaluable boundary = true) :
    scopeAttenuatesWithin boundary boundary = true := by
  rw [boundaryIsEvaluable_eq] at readable
  obtain ⟨ps, hp⟩ := Option.isSome_iff_exists.mp readable
  rw [scopeAttenuatesWithin_eq, hp]
  exact Containment.attenuates_refl prefixContains_refl ps

/-- Between readable boundaries, reaching nothing past the parent is attenuation, unless
the child is unrestricted. -/
theorem attenuates_of_scopeContains {parentScope childScope : List ScopeBoundaryEntry}
    (parentReadable : boundaryIsEvaluable parentScope = true)
    (childReadable : boundaryIsEvaluable childScope = true) (restricted : childScope ≠ [])
    (included : ∀ resource, scopeContains childScope resource = true →
      scopeContains parentScope resource = true) :
    scopeAttenuatesWithin parentScope childScope = true := by
  rw [boundaryIsEvaluable_eq] at parentReadable childReadable
  obtain ⟨ps, hp⟩ := Option.isSome_iff_exists.mp parentReadable
  obtain ⟨cs, hc⟩ := Option.isSome_iff_exists.mp childReadable
  simp only [scopeContains_eq, hp, hc] at included
  have regions : cs ≠ [] := by
    have same := Containment.regions_isEmpty hc
    rw [List.isEmpty_eq_false_iff.mpr restricted] at same
    exact List.isEmpty_eq_false_iff.mp same
  rw [scopeAttenuatesWithin_eq, hp, hc]
  exact Containment.attenuates_of_inclusion prefixContains_refl regions included

theorem pairwise_scopeAttenuates {boundaries : List (List ScopeBoundaryEntry)}
    (chain : boundaries.IsChain (fun parent child => scopeAttenuatesWithin parent child = true)) :
    boundaries.Pairwise (fun ancestor child => scopeAttenuatesWithin ancestor child = true) := by
  have transitive : Trans
      (fun parent child : List ScopeBoundaryEntry => scopeAttenuatesWithin parent child = true)
      (fun parent child => scopeAttenuatesWithin parent child = true)
      (fun parent child => scopeAttenuatesWithin parent child = true) :=
    ⟨fun hab hbc => scopeAttenuatesWithin_trans hab hbc⟩
  exact List.isChain_iff_pairwise.mp chain

/-- Scope attenuation is inclusion of what the boundaries reach, it is reflexive on readable
boundaries and transitive, and so no chain of it widens. -/
theorem scopeAttenuation_is_inclusion :
    (∀ parent child, scopeAttenuationReason parent child = .attenuated →
      ∀ resource, scopeContains child resource = true → scopeContains parent resource = true) ∧
    (∀ parent child, boundaryIsEvaluable parent = true → boundaryIsEvaluable child = true →
      child ≠ [] →
      (∀ resource, scopeContains child resource = true → scopeContains parent resource = true) →
      scopeAttenuationReason parent child = .attenuated) ∧
    (∀ boundary, boundaryIsEvaluable boundary = true →
      scopeAttenuationReason boundary boundary = .attenuated) ∧
    (∀ a b c, scopeAttenuationReason a b = .attenuated → scopeAttenuationReason b c = .attenuated →
      scopeAttenuationReason a c = .attenuated) ∧
    (∀ boundaries : List (List ScopeBoundaryEntry),
      boundaries.IsChain (fun parent child => scopeAttenuationReason parent child = .attenuated) →
      boundaries.Pairwise (fun ancestor child =>
        ∀ resource, scopeContains child resource = true →
          scopeContains ancestor resource = true)) := by
  simp only [scopeAttenuationReason_eq_attenuated_iff]
  refine ⟨fun parent child attenuated resource held => scopeContains_of_attenuates attenuated held,
    fun parent child hp hc restricted included =>
      attenuates_of_scopeContains hp hc restricted included,
    fun boundary readable => scopeAttenuatesWithin_refl readable,
    fun a b c hab hbc => scopeAttenuatesWithin_trans hab hbc, fun boundaries chain => ?_⟩
  exact (pairwise_scopeAttenuates chain).imp
    (fun attenuated resource held => scopeContains_of_attenuates attenuated held)

theorem capsContain_iff (capabilities : List String) (capability : String) :
    capsContain capabilities capability = true ↔ capability ∈ capabilities := by
  simp [capsContain]

theorem capsAttenuateWithin_iff (parentCaps childCaps : List String) :
    capsAttenuateWithin parentCaps childCaps = true ↔ childCaps ⊆ parentCaps := by
  simp [capsAttenuateWithin, capsContain_iff, List.subset_def]

theorem expiryAttenuatesWithin_iff [Chrono] (parentExpiresAt childExpiresAt : String) :
    expiryAttenuatesWithin parentExpiresAt (some childExpiresAt) = true ↔
      ∃ parent child, Chrono.parseFromRfc3339 parentExpiresAt = some parent ∧
        Chrono.parseFromRfc3339 childExpiresAt = some child ∧ child ≤ parent := by
  unfold expiryAttenuatesWithin
  rw [Option.bind_some]
  split
  · rename_i parent child hp hc
    simp [hp, hc]
  · rename_i unreadable
    constructor
    · intro h; cases h
    · rintro ⟨parent, child, hp, hc, _⟩
      exact absurd hc (unreadable parent child hp)

/-- Authority of one document contained in another's: scope, capabilities and
expiry. -/
structure Contained [Chrono] (parent child : Vaid) : Prop where
  scope : scopeAttenuates parent child.scopeBoundary = true
  caps : capsAttenuate parent child.capabilitySet = true
  expiry : expiryAttenuates parent (some child.expiresAtAsPresented) = true

namespace Contained

variable [Chrono]

theorem trans {a b c : Vaid} (hab : Contained a b) (hbc : Contained b c) : Contained a c where
  scope := scopeAttenuatesWithin_trans hab.scope hbc.scope
  caps := by
    have h₁ := (capsAttenuateWithin_iff _ _).mp hab.caps
    have h₂ := (capsAttenuateWithin_iff _ _).mp hbc.caps
    exact (capsAttenuateWithin_iff _ _).mpr (fun _ held => h₁ (h₂ held))
  expiry := by
    obtain ⟨ta, tb, ha, hb, hle⟩ := (expiryAttenuatesWithin_iff _ _).mp hab.expiry
    obtain ⟨tb', tc, hb', hc, hle'⟩ := (expiryAttenuatesWithin_iff _ _).mp hbc.expiry
    cases hb.symm.trans hb'
    exact (expiryAttenuatesWithin_iff _ _).mpr ⟨ta, tc, ha, hc, hle'.trans hle⟩

theorem isInScope {parent child : Vaid} (h : Contained parent child) {resource : String}
    (held : child.isInScope resource = true) : parent.isInScope resource = true :=
  scopeContains_of_attenuates h.scope held

theorem hasCapability {parent child : Vaid} (h : Contained parent child) :
    child.capabilitySet ⊆ parent.capabilitySet :=
  (capsAttenuateWithin_iff _ _).mp h.caps

theorem expiresAt {parent child : Vaid} (h : Contained parent child) :
    ∃ p c, parent.expiresAt = some p ∧ child.expiresAt = some c ∧ c ≤ p :=
  (expiryAttenuatesWithin_iff _ _).mp h.expiry

theorem isExpiredAt {parent child : Vaid} (h : Contained parent child) {now : Instant}
    (expired : parent.isExpiredAt now = true) : child.isExpiredAt now = true := by
  obtain ⟨p, c, hp, hc, hle⟩ := h.expiresAt
  simp only [Vaid.isExpiredAt, hp, hc, decide_eq_true_eq] at expired ⊢
  exact lt_of_le_of_lt hle expired

end Contained

end VaidSuite
