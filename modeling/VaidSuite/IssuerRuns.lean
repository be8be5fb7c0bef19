import VaidSuite.Issuer
import VaidSuite.Lib.Ledger

/-! Runs of the in-memory issuer: issuing, revoking and losing the lineage map in
any order, against the true issuing history. -/
namespace VaidSuite.IssuerRuns

/-- One call on the issuer. -/
inductive Op where
  | issue (env : IssueEnv) (attributes : IssueAttributes) (registeredKey : Option Bytes)
      (notAfter : Option String)
  | revoke (vaidId : VaidId)
  | clearLineage

/-- What truly happened, newest last. -/
inductive Event where
  | issued (v : Vaid)
  | revoked (vaidId : VaidId)
  | cleared

abbrev InMemoryIssuer := ReferenceIssuer InMemoryLineageStore InMemoryRevocationList

structure State where
  issuer : InMemoryIssuer
  history : List Event

section Steps

variable [Crypto] [Chrono]

def issue (issuer : InMemoryIssuer) (env : IssueEnv) (attributes : IssueAttributes)
    (registeredKey : Option Bytes) (notAfter : Option String) : MintResult Vaid × InMemoryIssuer :=
  match registeredKey with
  | some key => issuer.issueVaidWithKey env attributes key notAfter
  | none => issuer.issueVaidWithLineage env attributes notAfter

def step (s : State) : Op → State
  | .issue env attributes registeredKey notAfter =>
    match issue s.issuer env attributes registeredKey notAfter with
    | (.ok v, issuer) => ⟨issuer, s.history ++ [.issued v]⟩
    | (_, issuer) => ⟨issuer, s.history⟩
  | .revoke vaidId => ⟨s.issuer.revoke vaidId, s.history ++ [.revoked vaidId]⟩
  | .clearLineage => ⟨s.issuer.clearLineage, s.history ++ [.cleared]⟩

end Steps

/-- An issuer that assumes nothing revoked, before its first call. -/
def start (kernelKeyPair : Ed25519KeyPair) (vaidTtlHours : Int) (trustDomain : TrustDomain) : State :=
  ⟨(ReferenceIssuer.withKey kernelKeyPair vaidTtlHours trustDomain).assumingNothingRevoked, []⟩

def issuedIds (history : List Event) : List VaidId :=
  history.filterMap (fun e => match e with
    | .issued v => some v.vaidId
    | _ => none)

/-- Issued ids are distinct, and a named parent was issued before. -/
def Admissible (s : State) : Op → Prop
  | .issue env attributes _ _ =>
    ⟨env.agentId.uuid⟩ ∉ issuedIds s.history ∧
      ∀ p, attributes.parentVaid = some p → p ∈ issuedIds s.history
  | .revoke _ => True
  | .clearLineage => True

/-- The arrivals and losses of a history. -/
def ledger (history : List Event) : List (Ledger.Event VaidId) :=
  history.filterMap (fun e => match e with
    | .issued v => some (.arrived v.vaidId v.parentVaid)
    | .revoked _ => none
    | .cleared => some .wiped)

def IssuedAncestry (history : List Event) (v : Vaid) (ancestors : List VaidId) : Prop :=
  Ancestry.Path (Ledger.truth (ledger history)) v.parentVaid ancestors

/-- No loss of the lineage map since `id` was issued. -/
def UnclearedSince (history : List Event) (id : VaidId) : Prop :=
  ∃ before v after, history = before ++ .issued v :: after ∧ v.vaidId = id ∧
    Event.cleared ∉ after

theorem truth_ledger_eq_none_iff (history : List Event) (id : VaidId) :
    Ledger.truth (ledger history) id = none ↔ id ∉ issuedIds history := by
  induction history using List.reverseRecOn with
  | nil => simp [ledger, issuedIds, Ledger.truth]
  | append_singleton history e ih =>
    cases e with
    | revoked x => simpa [ledger, issuedIds] using ih
    | cleared => simpa [ledger, issuedIds] using ih
    | issued v =>
      by_cases same : id = v.vaidId
      · subst same
        simp [ledger, issuedIds]
      · simpa [ledger, issuedIds, Ancestry.extend_of_ne _ _ same, same] using ih

theorem truth_of_issued {history : List Event} (wf : Ledger.WellFormed (ledger history)) {v : Vaid}
    (issued : Event.issued v ∈ history) :
    Ledger.truth (ledger history) v.vaidId = some v.parentVaid := by
  obtain ⟨before, after, rfl⟩ := List.append_of_mem issued
  have split_ : ledger (before ++ .issued v :: after) =
      (ledger before ++ [.arrived v.vaidId v.parentVaid]) ++ ledger after := by
    simp [ledger]
  rw [split_] at wf ⊢
  exact wf.truth_mono (by simp)

/-- The stores hold what the history says they must: the lineage map remembers what
was issued since it was last lost, and the revocation store holds every revocation. -/
structure Inv (s : State) : Prop where
  wellFormed : Ledger.WellFormed (ledger s.history)
  remembers : s.issuer.lineage.entries = Ledger.memory (ledger s.history)
  vouches : ∃ revoked, s.issuer.revocation.state = some revoked ∧
    ∀ id, id ∈ revoked ↔ Event.revoked id ∈ s.history

theorem inv_start (kernelKeyPair : Ed25519KeyPair) (vaidTtlHours : Int)
    (trustDomain : TrustDomain) : Inv (start kernelKeyPair vaidTtlHours trustDomain) :=
  ⟨.nil, rfl, ∅, rfl, by simp [start]⟩

section Runs

variable [Crypto] [Chrono]

/-- Issuing either changes nothing, or signs a document for the fresh id under the
named parent and records both. -/
theorem issue_cases (issuer : InMemoryIssuer) (env : IssueEnv) (attributes : IssueAttributes)
    (registeredKey : Option Bytes) (notAfter : Option String) :
    ((∀ v, (issue issuer env attributes registeredKey notAfter).1 ≠ .ok v) ∧
        (issue issuer env attributes registeredKey notAfter).2 = issuer) ∨
      ∃ v, issue issuer env attributes registeredKey notAfter =
          (.ok v, { issuer with
            lineage := issuer.lineage.record ⟨env.agentId.uuid⟩ attributes.parentVaid }) ∧
        v.vaidId = ⟨env.agentId.uuid⟩ ∧ v.parentVaid = attributes.parentVaid := by
  have built : ∃ key, issue issuer env attributes registeredKey notAfter =
      issuer.buildAndSignVaid env attributes key notAfter := by
    cases registeredKey with
    | none => exact ⟨_, rfl⟩
    | some key => exact ⟨key, rfl⟩
  obtain ⟨key, built⟩ := built
  rw [built]
  rcases issuer.buildAndSignVaid_cases env attributes key notAfter (Prod.mk.eta).symm with
    failed | ⟨expires, _, after, ⟨e, refused, _⟩ | ⟨_, signed⟩⟩
  · exact .inl failed
  · cases refused
  · refine .inr ⟨issuer.signedVaid env attributes key expires, Prod.ext signed after, rfl, ?_⟩
    exact issuer.parentVaid_signedVaid env attributes key expires

theorem inv_step (s : State) (op : Op) (inv : Inv s) (admissible : Admissible s op) :
    Inv (step s op) := by
  obtain ⟨wf, remembers, revoked, vouching, exact_⟩ := inv
  cases op with
  | revoke x =>
    have ledger_ : ledger (s.history ++ [.revoked x]) = ledger s.history := by simp [ledger]
    refine ⟨ledger_ ▸ wf, ledger_ ▸ remembers, insert x revoked, ?_, fun id => ?_⟩
    · simp [step, ReferenceIssuer.revoke, InMemoryRevocationList.revoke, vouching]
    · simp [step, exact_, or_comm]
  | clearLineage =>
    have ledger_ : ledger (s.history ++ [.cleared]) = ledger s.history ++ [.wiped] := by
      simp [ledger]
    refine ⟨ledger_ ▸ wf.wiped, ?_, revoked, vouching, fun id => ?_⟩
    · simp [step, ledger_, ReferenceIssuer.clearLineage, InMemoryLineageStore.clear,
        InMemoryLineageStore.new]
    · simp [step, exact_]
  | issue env attributes registeredKey notAfter =>
    rcases issue_cases s.issuer env attributes registeredKey notAfter with
      ⟨failed, same⟩ | ⟨v, issued, id, parent⟩
    · have unchanged : step s (.issue env attributes registeredKey notAfter) = s := by
        simp only [step, same]
      rw [unchanged]
      exact ⟨wf, remembers, revoked, vouching, exact_⟩
    · have stepped : step s (.issue env attributes registeredKey notAfter) =
          ⟨{ s.issuer with
              lineage := s.issuer.lineage.record ⟨env.agentId.uuid⟩ attributes.parentVaid },
            s.history ++ [.issued v]⟩ := by
        simp only [step, issued]
      have ledger_ : ledger (s.history ++ [.issued v]) =
          ledger s.history ++ [.arrived ⟨env.agentId.uuid⟩ attributes.parentVaid] := by
        simp [ledger, id, parent]
      rw [stepped]
      refine ⟨?_, ?_, revoked, vouching, fun id => ?_⟩
      · rw [ledger_]
        refine wf.arrived ((truth_ledger_eq_none_iff _ _).mpr admissible.1) (fun p hp => ?_)
        by_contra unknown
        have none_ : Ledger.truth (ledger s.history) p = none := by
          cases h : Ledger.truth (ledger s.history) p with
          | none => rfl
          | some next => exact absurd ⟨next, h⟩ unknown
        exact (truth_ledger_eq_none_iff _ _).mp none_ (admissible.2 p hp)
      · rw [ledger_, Ledger.memory_arrived, ← remembers]
        rfl
      · simp [exact_]

theorem inv_run {s : State} (inv : Inv s) {ops : List Op}
    (admissible : Runs.Along step Admissible s ops) : Inv (Runs.run step s ops) :=
  Runs.invariant _ _ inv_step inv admissible

end Runs

section Status

variable {s : State}

theorem ancestry_unique {v : Vaid} {xs ys : List VaidId} (hx : IssuedAncestry s.history v xs)
    (hy : IssuedAncestry s.history v ys) : xs = ys :=
  Ancestry.Path.unique hx hy

theorem exists_ancestry (inv : Inv s) {v : Vaid} (issued : Event.issued v ∈ s.history) :
    ∃ ancestors, IssuedAncestry s.history v ancestors ∧ (v.vaidId :: ancestors).Nodup :=
  inv.wellFormed.grounded v.vaidId v.parentVaid (truth_of_issued inv.wellFormed issued)

theorem hasAncestry_iff (inv : Inv s) (v : Vaid) (path : List VaidId) :
    HasAncestry s.issuer.resolveParent v path ↔
      Ancestry.Path (Ledger.memory (ledger s.history)) v.parentVaid path := by
  rw [← inv.remembers, ← InMemoryLineageStore.pointers_eq]
  rfl

theorem clean_of_notRevoked (inv : Inv s) {v : Vaid} {ancestors : List VaidId}
    (ancestry : IssuedAncestry s.history v ancestors)
    (clean : s.issuer.revocationStatus v = .notRevoked) :
    ∀ x ∈ v.vaidId :: ancestors, Event.revoked x ∉ s.history := by
  unfold ReferenceIssuer.revocationStatus at clean
  cases assembled : assembleLineage v s.issuer.resolveParent with
  | incomplete => rw [assembled] at clean; cases clean
  | complete lineage =>
    rw [assembled] at clean
    obtain ⟨path, hpath, _, _, rfl⟩ := (assembleLineage_eq_complete_iff _ _ _).mp assembled
    have remembered := (hasAncestry_iff inv v path).mp hpath
    have true_ : IssuedAncestry s.history v path := by
      refine remembered.mono (fun p hp => ?_)
      obtain ⟨next, hnext⟩ := remembered.known p hp
      rw [hnext, inv.wellFormed.memory_le_truth hnext]
    cases ancestry_unique ancestry true_
    obtain ⟨revoked, vouching, none_⟩ :=
      (InMemoryRevocationList.checkLineage_eq_notRevoked_iff _ _).mp clean
    obtain ⟨revoked', vouching', exact_⟩ := inv.vouches
    cases vouching.symm.trans vouching'
    intro x hx recorded
    exact none_ x (List.mem_reverse.mpr hx) ((exact_ x).mpr recorded)

theorem notRevoked_of_clean (inv : Inv s) {v : Vaid} (issued : Event.issued v ∈ s.history)
    {ancestors : List VaidId} (ancestry : IssuedAncestry s.history v ancestors)
    (clean : ∀ x ∈ v.vaidId :: ancestors, Event.revoked x ∉ s.history)
    (kept : ∀ oldest, ancestors.getLast? = some oldest → UnclearedSince s.history oldest)
    (short : ancestors.length ≤ 1023) : s.issuer.revocationStatus v = .notRevoked := by
  have remembered : Ancestry.Path (Ledger.memory (ledger s.history)) v.parentVaid ancestors := by
    refine inv.wellFormed.path_remembered ancestry (fun oldest last => ?_)
    obtain ⟨before, w, after, split_, rfl, uncleared⟩ := kept oldest last
    refine ⟨ledger before, ledger after, w.parentVaid, by simp [split_, ledger], ?_⟩
    intro wiped
    obtain ⟨e, he, is_⟩ := List.mem_filterMap.mp wiped
    cases e with
    | cleared => exact uncleared he
    | issued _ => cases is_
    | revoked _ => cases is_
  obtain ⟨path, hpath, nodup⟩ := exists_ancestry inv issued
  cases ancestry_unique ancestry hpath
  have assembled : assembleLineage v s.issuer.resolveParent =
      .complete (v.vaidId :: ancestors).reverse :=
    (assembleLineage_eq_complete_iff _ _ _).mpr
      ⟨ancestors, (hasAncestry_iff inv v ancestors).mpr remembered, nodup,
        by simp only [List.length_cons, maxLineageDepth]; omega, rfl⟩
  obtain ⟨revoked, vouching, exact_⟩ := inv.vouches
  simp only [ReferenceIssuer.revocationStatus, assembled]
  refine (InMemoryRevocationList.checkLineage_eq_notRevoked_iff _ _).mpr ⟨revoked, vouching, ?_⟩
  intro id hid hrevoked
  exact clean id (List.mem_reverse.mp hid) ((exact_ id).mp hrevoked)

end Status

/-- Over every run of the issuer revocation is inherited and fails closed: a
document with a revoked ancestor is never reported clean nor verified, and one with
a clean ancestry that is still remembered and short enough is reported clean. -/
theorem revocation_inherited [Crypto] [Chrono] (kernelKeyPair : Ed25519KeyPair)
    (vaidTtlHours : Int) (trustDomain : TrustDomain) (ops : List Op)
    (admissible : Runs.Along step Admissible (start kernelKeyPair vaidTtlHours trustDomain) ops) :
    let s := Runs.run step (start kernelKeyPair vaidTtlHours trustDomain) ops
    ∀ v, Event.issued v ∈ s.history →
      ∃ ancestors, IssuedAncestry s.history v ancestors ∧
        ((∃ x ∈ v.vaidId :: ancestors, Event.revoked x ∈ s.history) →
          s.issuer.revocationStatus v ≠ .notRevoked ∧
            ∀ now, s.issuer.verifyVaid v now = false) ∧
        ((∀ x ∈ v.vaidId :: ancestors, Event.revoked x ∉ s.history) →
          (∀ oldest, ancestors.getLast? = some oldest → UnclearedSince s.history oldest) →
          ancestors.length ≤ 1023 → s.issuer.revocationStatus v = .notRevoked) := by
  intro s v issued
  have inv : Inv s := inv_run (inv_start kernelKeyPair vaidTtlHours trustDomain) admissible
  obtain ⟨ancestors, ancestry, _⟩ := exists_ancestry inv issued
  refine ⟨ancestors, ancestry, ?_, notRevoked_of_clean inv issued ancestry⟩
  rintro ⟨x, hx, revoked⟩
  have refused : s.issuer.revocationStatus v ≠ .notRevoked :=
    fun clean => clean_of_notRevoked inv ancestry clean x hx revoked
  refine ⟨refused, fun now => Bool.eq_false_iff.mpr (fun verified => ?_)⟩
  exact refused ((ReferenceIssuer.verifyVaid_iff _ _ _).mp verified).2.2.1

section Example

local instance runCrypto : Crypto := .standIn

local instance runChrono : Chrono :=
  .table [(1893456000, "2030-01-01T00:00:00Z"), (1893459600, "2030-01-01T01:00:00Z")]

def exampleAttributes (parent : Option VaidId) : IssueAttributes :=
  ⟨⟨"researcher"⟩, "1.0.0", ⟨"acme"⟩, parent, [], []⟩

/-- A root, a child of it, and the root's revocation. -/
def exampleOps : List Op :=
  [.issue ⟨⟨.fromU128 1⟩, ⟨1893456000, 0⟩, ⟨[2]⟩⟩ (exampleAttributes none) none none,
    .issue ⟨⟨.fromU128 2⟩, ⟨1893456000, 0⟩, ⟨[3]⟩⟩ (exampleAttributes (some ⟨.fromU128 1⟩)) none
      none,
    .revoke ⟨.fromU128 1⟩]

theorem exampleOps_admissible :
    Runs.Along step Admissible (start ⟨[1]⟩ 1 ⟨"vaid.example", isValidTrustDomain_example⟩) exampleOps := by
  refine .cons ⟨by decide, by rintro _ ⟨⟩⟩ (.cons ⟨by decide, ?_⟩ (.cons trivial .nil))
  rintro _ ⟨⟩
  decide

def exampleChild : Vaid :=
  (ReferenceIssuer.withKey ⟨[1]⟩ 1 ⟨"vaid.example", isValidTrustDomain_example⟩).signedVaid
    ⟨⟨.fromU128 2⟩, ⟨1893456000, 0⟩, ⟨[3]⟩⟩ (exampleAttributes (some ⟨.fromU128 1⟩)) [3]
    ⟨1893459600, 0⟩

theorem exampleChild_refused :
    (Runs.run step (start ⟨[1]⟩ 1 ⟨"vaid.example", isValidTrustDomain_example⟩)
      exampleOps).issuer.revocationStatus exampleChild ≠ .notRevoked := by
  obtain ⟨ancestors, ancestry, refused, _⟩ := revocation_inherited ⟨[1]⟩ 1
    ⟨"vaid.example", isValidTrustDomain_example⟩ exampleOps exampleOps_admissible exampleChild (.tail _ (.head _))
  have parent : exampleChild.parentVaid = some ⟨.fromU128 1⟩ := by decide
  have above : (⟨.fromU128 1⟩ : VaidId) ∈ ancestors := by
    rw [IssuedAncestry, parent] at ancestry
    cases ancestry
    exact List.mem_cons_self
  exact (refused ⟨_, List.mem_cons_of_mem _ above, .tail _ (.tail _ (.head _))⟩).1

end Example

end VaidSuite.IssuerRuns
