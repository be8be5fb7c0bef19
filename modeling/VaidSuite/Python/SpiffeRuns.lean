import VaidSuite.Python.MintRuns
import VaidSuite.Python.PossessionSpec
import VaidSuite.Python.SpiffeMint

/-! Runs of the SPIFFE mint, between calls of the wrapped service by others. -/
namespace VaidSuite.Python.SpiffeMint

section Mint

variable [Libraries] [PrivateKeys] [SvidLibraries]

section Call

variable {L R A : Type} [LineageStore L] [AuditSink A]

omit [PrivateKeys] [LineageStore L] [AuditSink A] in
theorem run_verifyHolder_iff (env : SpiffeEnv) (seed : VaidSeed) (svid : SvidPresentation)
    (time : Option UtcDatetime) (verified : VerifiedSvid) (s s' : SpiffeMint L R A) :
    (verifyHolder env seed svid time : Call L R A VerifiedSvid).run s = (.ok verified, s') ↔
      verifySvidChain svid.leaf svid.intermediates s.trustBundle s.trustDomain time env.chainNow =
        .ok verified ∧
      ∃ key, seed.publicKeyDer = some key ∧
        ProvesHolder env.possessionNow verified.leaf key svid.possession possessionFreshnessSecs ∧
        svid.possession.nonce ∉ s.consumedSvidNonces ∧
        { s with consumedSvidNonces := insert svid.possession.nonce s.consumedSvidNonces } = s' := by
  simp only [verifyHolder, Fallible.run_bind_iff, Fallible.run_read_iff, Fallible.run_ofExcept_iff,
    Fallible.run_required_iff, Fallible.run_within_iff, run_verifySvidPossession_iff,
    Fallible.run_pure_iff]
  constructor
  · rintro ⟨_, _, ⟨rfl, rfl⟩, verified, _, ⟨chain, rfl⟩, key, _, ⟨registered, rfl⟩, _, _,
      ⟨_, ⟨holder, unspent, rfl⟩, rfl⟩, rfl, rfl⟩
    exact ⟨chain, key, registered, holder, unspent, rfl⟩
  · rintro ⟨chain, key, registered, holder, unspent, rfl⟩
    exact ⟨s, s, ⟨rfl, rfl⟩, verified, s, ⟨chain, rfl⟩, key, s, ⟨registered, rfl⟩, ⟨⟩, _,
      ⟨_, ⟨holder, unspent, rfl⟩, rfl⟩, rfl, rfl⟩

omit [Libraries] [PrivateKeys] [SvidLibraries] [LineageStore L] in
theorem run_recordBinding_iff (details : Dict) (u : PUnit) (s s' : SpiffeMint L R A) :
    (recordBinding details : Call L R A PUnit).run s = (.ok u, s') ↔
      ∃ audit, AuditSink.record s.mint.audit (py "vaid_minted_with_external_identity") details =
        (.ok (), audit) ∧ { s with mint := { s.mint with audit := audit } } = s' := by
  rw [recordBinding, Fallible.run_atomically]
  obtain ⟨recorded, audit⟩ :=
    AuditSink.record s.mint.audit (py "vaid_minted_with_external_identity") details
  cases recorded <;> simp

theorem run_mintRootWithSvid_iff (env : SpiffeEnv) (seed : VaidSeed) (svid : SvidPresentation)
    (pop : MintPop) (time : Option UtcDatetime) (result : SpiffeMintResult) (s s' : SpiffeMint L R A) :
    (mintRootWithSvid env seed svid pop time : Call L R A SpiffeMintResult).run s = (.ok result, s') ↔
      ∃ verified t vaid mint vaidId audit,
        (verifyHolder env seed svid time : Call L R A VerifiedSvid).run s = (.ok verified, t) ∧
        (MintService.mintRoot env.mint seed (some pop)).run t.mint = (.ok vaid, mint) ∧
        vaid.item "vaid_id" = .ok vaidId ∧
        AuditSink.record mint.audit (py "vaid_minted_with_external_identity")
          (bindingDetails vaidId verified.spiffeId verified.trustDomain) = (.ok (), audit) ∧
        ⟨vaid, verified.spiffeId, verified.trustDomain⟩ = result ∧
        { t with mint := { mint with audit := audit } } = s' := by
  simp only [mintRootWithSvid, Fallible.run_bind_iff, Fallible.run_within_iff, Fallible.run_ofExcept_iff,
    run_recordBinding_iff, Fallible.run_pure_iff, raising_eq_ok_iff]
  constructor
  · rintro ⟨verified, t, holder, vaid, _, ⟨mint, minted, rfl⟩, vaidId, _, ⟨named, rfl⟩, _, _,
      ⟨audit, recorded, rfl⟩, rfl, rfl⟩
    exact ⟨verified, t, vaid, mint, vaidId, audit, holder, minted, named, recorded, rfl, rfl⟩
  · rintro ⟨verified, t, vaid, mint, vaidId, audit, holder, minted, named, recorded, rfl, rfl⟩
    exact ⟨verified, t, holder, vaid, _, ⟨mint, minted, rfl⟩, vaidId, _, ⟨named, rfl⟩, ⟨⟩, _,
      ⟨audit, recorded, rfl⟩, rfl, rfl⟩

/-- The wrapped service is as it was. -/
def Untouched (s t : SpiffeMint L R A) : Prop := t.mint = s.mint

/-- The SVID nonces are as they were. -/
def Unspent (s t : SpiffeMint L R A) : Prop := t.consumedSvidNonces = s.consumedSvidNonces

omit [Libraries] [PrivateKeys] [SvidLibraries] [LineageStore L] [AuditSink A] in
theorem Untouched.refl (s : SpiffeMint L R A) : Untouched s s := rfl

omit [Libraries] [PrivateKeys] [SvidLibraries] [LineageStore L] [AuditSink A] in
theorem Unspent.refl (s : SpiffeMint L R A) : Unspent s s := rfl

omit [Libraries] [PrivateKeys] [SvidLibraries] [LineageStore L] [AuditSink A] in
theorem Untouched.trans {s t u : SpiffeMint L R A} (h : Untouched s t) (h' : Untouched t u) :
    Untouched s u :=
  Eq.trans h' h

omit [Libraries] [PrivateKeys] [SvidLibraries] [LineageStore L] [AuditSink A] in
theorem Unspent.trans {s t u : SpiffeMint L R A} (h : Unspent s t) (h' : Unspent t u) : Unspent s u :=
  Eq.trans h' h

open Fallible in
omit [PrivateKeys] [LineageStore L] [AuditSink A] in
theorem untouched_verifyHolder (env : SpiffeEnv) (seed : VaidSeed) (svid : SvidPresentation)
    (time : Option UtcDatetime) :
    Guarantees Untouched (verifyHolder env seed svid time : Call L R A VerifiedSvid) :=
  (guarantees_read Untouched.refl _).bind (fun _ => (guarantees_ofExcept _).bind (fun _ =>
    (guarantees_required _ _).bind (fun _ =>
    ((guarantees_of_forall (fun _ _ => trivial) _).within (fun _ _ (_ : True) => rfl)).bind
      (fun _ => guarantees_pure _))))

open Fallible in
/-- A call that has changed the wrapped service was made by the holder of a verified SVID, and has spent
its nonce. -/
theorem mintRootWithSvid_reaches (env : SpiffeEnv) (seed : VaidSeed) (svid : SvidPresentation)
    (pop : MintPop) (time : Option UtcDatetime) (s : SpiffeMint L R A)
    (changed : ((mintRootWithSvid env seed svid pop time).run s).2.mint ≠ s.mint) :
    ∃ verified key, verifySvidChain svid.leaf svid.intermediates s.trustBundle s.trustDomain time
        env.chainNow = .ok verified ∧ seed.publicKeyDer = some key ∧
      ProvesHolder env.possessionNow verified.leaf key svid.possession possessionFreshnessSecs ∧
      svid.possession.nonce ∉ s.consumedSvidNonces ∧
      ((mintRootWithSvid env seed svid pop time).run s).2.consumedSvidNonces =
        insert svid.possession.nonce s.consumedSvidNonces := by
  have rest : ∀ verified : VerifiedSvid, Guarantees Unspent (do
      let vaid ← within wrapped (MintService.mintRoot env.mint seed (some pop))
      let vaidId ← ofExcept (raising (vaid.item "vaid_id"))
      recordBinding (bindingDetails vaidId verified.spiffeId verified.trustDomain)
      pure ⟨vaid, verified.spiffeId, verified.trustDomain⟩ : Call L R A SpiffeMintResult) := by
    intro verified
    refine ((guarantees_of_forall (fun _ _ => trivial) _).within (fun _ _ (_ : True) => rfl)).bind
      (fun vaid => (guarantees_ofExcept _).bind (fun vaidId =>
        (guarantees_atomically (fun s => ?_)).bind (fun _ => guarantees_pure _)))
    split <;> rfl
  unfold mintRootWithSvid at changed ⊢
  rw [run_bind] at changed ⊢
  have untouched := (untouched_verifyHolder env seed svid time).run .refl .trans s
  cases ran : (verifyHolder env seed svid time : Call L R A VerifiedSvid).run s with
  | mk outcome t =>
    rw [ran] at untouched changed
    cases outcome with
    | error e => exact absurd untouched changed
    | panicked => exact absurd untouched changed
    | ok verified =>
      obtain ⟨chain, key, registered, holder, unspent, rfl⟩ :=
        (run_verifyHolder_iff env seed svid time verified s t).mp ran
      exact ⟨verified, key, chain, registered, holder, unspent,
        (rest verified).run .refl .trans _⟩

end Call

/-- The SPIFFE mint over the default stores. -/
abbrev Service := SpiffeMint InMemoryLineageStore InMemoryRevocationList InMemoryAudit

/-- A VAID that was returned, with what was presented for it, and the clocks of the call. -/
structure Grant where
  env : SpiffeEnv
  time : Option UtcDatetime
  key : Bytes
  svid : SvidPresentation
  result : SpiffeMintResult

structure State where
  service : Service
  granted : List Grant

def start (service : Service) : State := ⟨service, []⟩

inductive Op where
  | mintRootWithSvid (env : SpiffeEnv) (seed : VaidSeed) (svid : SvidPresentation) (pop : MintPop)
      (time : Option UtcDatetime)
  /-- A call on the wrapped service itself. -/
  | wrapped (op : MintRuns.Op)

def step (s : State) : Op → State
  | .mintRootWithSvid env seed svid pop time =>
    match (SpiffeMint.mintRootWithSvid env seed svid pop time).run s.service with
    | (.ok result, service) =>
      ⟨service, s.granted ++ [⟨env, time, seed.publicKeyDer.getD [], svid, result⟩]⟩
    | (.error _, service) => ⟨service, s.granted⟩
    | (.panicked, service) => ⟨service, s.granted⟩
  | .wrapped op =>
    { s with service := { s.service with mint := (MintRuns.step ⟨s.service.mint, []⟩ op).service } }

/-- What the SVID key has signed for a grant. -/
def Grant.message (g : Grant) : Raises Bytes :=
  canonicalSvidPossessionBytes
    (buildSvidPossessionPayload g.key g.svid.possession.nonce g.svid.possession.issuedAt)

/-- By the clocks of its call, the VAID operates under the key for which the holder of a verified SVID
has freshly signed, and the kernel has signed the VAID. -/
structure Bound (first : Service) (g : Grant) : Prop where
  holder : ∃ verified, verifySvidChain g.svid.leaf g.svid.intermediates first.trustBundle
      first.trustDomain g.time g.env.chainNow = .ok verified ∧
    ProvesHolder g.env.possessionNow verified.leaf g.key g.svid.possession possessionFreshnessSecs ∧
    verified.spiffeId = g.result.spiffeId ∧ verified.trustDomain = g.result.trustDomain
  key : g.result.vaid.get "public_key_der" = .ofBytes g.key
  signed : verifyKernelSignature first.mint.issuer.kernelPublicKey g.result.vaid = .ok ()

def bindingEvent : PyStr := py "vaid_minted_with_external_identity"

def Grant.entry (g : Grant) : AuditEntry :=
  ⟨bindingEvent, bindingDetails (g.result.vaid.get "vaid_id") g.result.spiffeId g.result.trustDomain⟩

def bindings (audit : InMemoryAudit) : List AuditEntry :=
  audit.entries.filter (fun e => e.eventType == bindingEvent)

structure Inv (first : Service) (s : State) : Prop where
  trustBundle : s.service.trustBundle = first.trustBundle
  trustDomain : s.service.trustDomain = first.trustDomain
  kernelKey : s.service.mint.issuer.kernelKey = first.mint.issuer.kernelKey
  spent : ∀ g ∈ s.granted, g.svid.possession.nonce ∈ s.service.consumedSvidNonces
  distinct : (s.granted.map (fun g => g.svid.possession.nonce)).Nodup
  bound : ∀ g ∈ s.granted, Bound first g
  audited : bindings s.service.mint.audit = bindings first.mint.audit ++ s.granted.map Grant.entry

/-! ### What a call leaves alone -/

/-- What a call of the wrapped service keeps to. -/
structure Quiet (s t : MintRuns.Service InMemoryAudit) : Prop where
  kernelKey : t.issuer.kernelKey = s.issuer.kernelKey
  bindings : bindings t.audit = bindings s.audit

/-- What a call keeps to until it records its binding. -/
structure Frame (s t : Service) : Prop extends Quiet s.mint t.mint where
  trustBundle : t.trustBundle = s.trustBundle
  trustDomain : t.trustDomain = s.trustDomain
  nonces : s.consumedSvidNonces ⊆ t.consumedSvidNonces

omit [Libraries] [PrivateKeys] [SvidLibraries] in
theorem Quiet.refl (s : MintRuns.Service InMemoryAudit) : Quiet s s := ⟨rfl, rfl⟩

omit [Libraries] [PrivateKeys] [SvidLibraries] in
theorem Quiet.trans {s t u : MintRuns.Service InMemoryAudit} (h : Quiet s t) (h' : Quiet t u) : Quiet s u :=
  ⟨h'.kernelKey.trans h.kernelKey, h'.bindings.trans h.bindings⟩

omit [Libraries] [PrivateKeys] [SvidLibraries] in
theorem Frame.refl (s : Service) : Frame s s := ⟨.refl _, rfl, rfl, subset_rfl⟩

omit [Libraries] [PrivateKeys] [SvidLibraries] in
theorem Frame.trans {s t u : Service} (h : Frame s t) (h' : Frame t u) : Frame s u where
  toQuiet := h.toQuiet.trans h'.toQuiet
  trustBundle := h'.trustBundle.trans h.trustBundle
  trustDomain := h'.trustDomain.trans h.trustDomain
  nonces := h.nonces.trans h'.nonces

omit [Libraries] [PrivateKeys] [SvidLibraries] in
theorem kept_quiet (vaidId : PyStr) : MintService.Kept vaidId Quiet where
  refl := .refl
  nonce _ _ := ⟨rfl, rfl⟩
  audit s details := by
    refine ⟨rfl, ?_⟩
    have other : (py "vaid_minted" == bindingEvent) = false := by decide
    simp [AuditSink.record, SpiffeMint.bindings, other]
  lineage _ _ _ _ := ⟨rfl, rfl⟩

omit [SvidLibraries] in
theorem quiet_step (service : MintRuns.Service InMemoryAudit) (op : MintRuns.Op) :
    Quiet service (MintRuns.step ⟨service, []⟩ op).service := by
  cases op with
  | mintRoot env seed pop =>
    rw [MintRuns.step, MintRuns.settle_service]
    exact ((kept_quiet env.issue.vaidId).mintRoot seed pop).run .refl .trans service
  | mintChild env seed parent pop =>
    rw [MintRuns.step, MintRuns.settle_service]
    exact ((kept_quiet env.issue.vaidId).mintChild seed pop parent).run .refl .trans service
  | revoke vaidId => exact ⟨rfl, rfl⟩
  | clearLineage => exact ⟨rfl, rfl⟩

section Frames

open Fallible

omit [PrivateKeys] in
theorem guarantees_verifySvidPossession (now : UtcDatetime) (leaf : Certificate) (key : Bytes)
    (possession : SvidPossession) (freshnessSecs : Nat) :
    Guarantees (fun consumed consumed' => consumed ⊆ consumed')
      (verifySvidPossession now leaf key possession freshnessSecs) :=
  (guarantees_required _ _).bind (fun _ => (guarantees_refuseIf _ _).bind (fun _ =>
    (guarantees_read (fun _ => subset_rfl) _).bind (fun _ => (guarantees_refuseIf _ _).bind (fun _ =>
    (guarantees_atomically (fun _ => Finset.subset_insert _ _)).bind (fun _ =>
    (guarantees_ofExcept _).bind (fun _ => (guarantees_ofExcept _).bind (fun _ =>
    guarantees_refuseIf _ _)))))))

omit [PrivateKeys] in
theorem frame_verifyHolder (env : SpiffeEnv) (seed : VaidSeed) (svid : SvidPresentation)
    (time : Option UtcDatetime) :
    Guarantees Frame (verifyHolder env seed svid time :
      Call InMemoryLineageStore InMemoryRevocationList InMemoryAudit VerifiedSvid) :=
  (guarantees_read Frame.refl _).bind (fun _ => (guarantees_ofExcept _).bind (fun _ =>
    (guarantees_required _ _).bind (fun _ =>
    ((guarantees_verifySvidPossession _ _ _ _ _).within (fun _ _ more => ⟨.refl _, rfl, rfl, more⟩)).bind
      (fun _ => guarantees_pure _))))

variable {env : SpiffeEnv} {seed : VaidSeed} {svid : SvidPresentation} {pop : MintPop}
  {time : Option UtcDatetime} {s : Service}

theorem frame_of_failed
    (failed : ∀ result, ((mintRootWithSvid env seed svid pop time).run s).1 ≠ .ok result) :
    Frame s ((mintRootWithSvid env seed svid pop time).run s).2 := by
  unfold mintRootWithSvid at failed ⊢
  rw [run_bind] at failed ⊢
  have holder := (frame_verifyHolder env seed svid time).run .refl .trans s
  generalize (verifyHolder env seed svid time).run s = answer at holder failed ⊢
  obtain ⟨outcome, t⟩ := answer
  cases outcome with
  | error e => exact holder
  | panicked => exact holder
  | ok verified =>
    dsimp only at failed ⊢
    rw [run_bind, run_within] at failed ⊢
    have quiet := ((kept_quiet env.mint.issue.vaidId).mintRoot seed (some pop)).run .refl .trans t.mint
    have minted : Frame s
        (wrapped.put ((MintService.mintRoot env.mint seed (some pop)).run (wrapped.get t)).2 t) :=
      holder.trans ⟨quiet, rfl, rfl, subset_rfl⟩
    generalize (MintService.mintRoot env.mint seed (some pop)).run (wrapped.get t) = answer at minted failed ⊢
    obtain ⟨outcome, mint⟩ := answer
    cases outcome with
    | error e => exact minted
    | panicked => exact minted
    | ok vaid =>
      dsimp only at failed ⊢
      cases named : vaid.item "vaid_id" with
      | error e => exact minted
      | ok vaidId =>
        rw [named] at failed
        exact absurd rfl (failed ⟨vaid, verified.spiffeId, verified.trustDomain⟩)

end Frames

section Invariant

variable {first : Service} {s : State} {t : Service}

theorem Inv.start (first : Service) : Inv first (start first) where
  trustBundle := rfl
  trustDomain := rfl
  kernelKey := rfl
  spent := by simp [SpiffeMint.start]
  distinct := List.nodup_nil
  bound := by simp [SpiffeMint.start]
  audited := (List.append_nil _).symm

theorem Inv.of_frame (inv : Inv first s) (frame : Frame s.service t) : Inv first ⟨t, s.granted⟩ where
  trustBundle := frame.trustBundle.trans inv.trustBundle
  trustDomain := frame.trustDomain.trans inv.trustDomain
  kernelKey := frame.kernelKey.trans inv.kernelKey
  spent g listed := frame.nonces (inv.spent g listed)
  distinct := inv.distinct
  bound := inv.bound
  audited := frame.bindings.trans inv.audited

omit [SvidLibraries] in
theorem of_mintRoot {env : MintEnv} {seed : VaidSeed} {key : Bytes} {pop : Option MintPop} {vaid : Dict}
    {service mint : MintRuns.Service InMemoryAudit} (kernel : SigningKey service.issuer.kernelKey)
    (registered : seed.publicKeyDer = some key)
    (minted : (MintService.mintRoot env seed pop).run service = (.ok vaid, mint)) :
    vaid.get "public_key_der" = .ofBytes key ∧ vaid.item "vaid_id" = .ok (vaid.get "vaid_id") ∧
      verifyKernelSignature service.issuer.kernelPublicKey vaid = .ok () := by
  obtain ⟨_, u, _, _, _, _, keyed, issued, _, rfl⟩ :=
    (MintService.run_mintRoot_iff env seed pop vaid service mint).mp minted
  rw [MintService.RootKeyed, registered] at keyed
  rcases keyed with ⟨p, same, _, _, _, rfl⟩ | ⟨none, _⟩
  · cases same
    obtain ⟨expires, lineageHash, thumbprint, entries, digest, _, _, _, digested, rfl⟩ :=
      ReferenceIssuer.of_buildAndSign_eq_ok issued.built
    exact ⟨rfl, rfl, ReferenceIssuer.verifyKernelSignature_signed kernel digested⟩
  · cases none

theorem Inv.grant (kernel : SigningKey first.mint.issuer.kernelKey) (inv : Inv first s) {env : SpiffeEnv}
    {seed : VaidSeed} {svid : SvidPresentation} {pop : MintPop} {time : Option UtcDatetime}
    {result : SpiffeMintResult}
    (ran : (mintRootWithSvid env seed svid pop time).run s.service = (.ok result, t)) :
    Inv first ⟨t, s.granted ++ [⟨env, time, seed.publicKeyDer.getD [], svid, result⟩]⟩ := by
  obtain ⟨verified, _, vaid, mint, vaidId, audit, holder, minted, named, recorded, rfl, rfl⟩ :=
    (run_mintRootWithSvid_iff env seed svid pop time result s.service t).mp ran
  obtain ⟨chain, key, registered, holds, unspent, rfl⟩ :=
    (run_verifyHolder_iff env seed svid time verified s.service _).mp holder
  have quiet := ((kept_quiet env.mint.issue.vaidId).mintRoot seed (some pop)).run .refl .trans s.service.mint
  rw [minted] at quiet
  have sameKernel := inv.kernelKey
  obtain ⟨operates, item, signed⟩ := of_mintRoot (sameKernel ▸ kernel) registered minted
  cases named.symm.trans item
  cases recorded
  rw [inv.trustBundle, inv.trustDomain] at chain
  refine ⟨inv.trustBundle, inv.trustDomain, quiet.kernelKey.trans inv.kernelKey, ?_, ?_, ?_, ?_⟩
  · intro g listed
    rcases List.mem_append.mp listed with earlier | last
    · exact Finset.mem_insert_of_mem (inv.spent g earlier)
    · rw [List.mem_singleton.mp last]
      exact Finset.mem_insert_self _ _
  · rw [List.map_append, List.map_singleton]
    refine List.nodup_append.mpr ⟨inv.distinct, List.pairwise_singleton _ _, ?_⟩
    rintro nonce listed _ last rfl
    obtain ⟨g, earlier, rfl⟩ := List.mem_map.mp listed
    exact unspent (List.mem_singleton.mp last ▸ inv.spent g earlier)
  · intro g listed
    rcases List.mem_append.mp listed with earlier | last
    · exact inv.bound g earlier
    · rw [List.mem_singleton.mp last, registered]
      refine ⟨⟨verified, chain, holds, rfl, rfl⟩, operates, ?_⟩
      rw [ReferenceIssuer.kernelPublicKey, ← sameKernel]
      exact signed
  · have before : bindings mint.audit = bindings s.service.mint.audit := quiet.bindings
    rw [List.map_append, ← List.append_assoc, ← inv.audited, ← before]
    simp [bindings, Grant.entry, bindingEvent]

theorem Inv.step (kernel : SigningKey first.mint.issuer.kernelKey) (inv : Inv first s) (op : Op) :
    Inv first (step s op) := by
  cases op with
  | wrapped op =>
    have quiet := quiet_step s.service.mint op
    exact inv.of_frame ⟨quiet, rfl, rfl, subset_rfl⟩
  | mintRootWithSvid env seed svid pop time =>
    rw [SpiffeMint.step]
    cases ran : (mintRootWithSvid env seed svid pop time).run s.service with
    | mk outcome t =>
      cases outcome with
      | ok result => exact inv.grant kernel ran
      | error e =>
        have frame := frame_of_failed (s := s.service) (fun result => by rw [ran]; nofun)
        rw [ran] at frame
        exact inv.of_frame frame
      | panicked =>
        have frame := frame_of_failed (s := s.service) (fun result => by rw [ran]; nofun)
        rw [ran] at frame
        exact inv.of_frame frame

theorem Inv.run (kernel : SigningKey first.mint.issuer.kernelKey) (ops : List Op) :
    Inv first (Runs.run SpiffeMint.step (SpiffeMint.start first) ops) :=
  Runs.invariant (Inv first) (fun _ _ => True) (fun _ op inv _ => inv.step kernel op) (.start first)
    (.of_forall (fun _ _ => trivial) _ _)

end Invariant

/-- Every VAID that was returned operates under a key for which the holder of a verified SVID has
freshly signed when it was issued. No such signature has served twice, and the audit trail has every binding, in order. -/
theorem svid_grants (first : Service) (kernel : SigningKey first.mint.issuer.kernelKey) (ops : List Op) :
    let s := Runs.run step (start first) ops
    (∀ g ∈ s.granted, Bound first g) ∧
      s.granted.Pairwise (fun g g' => Encodable g.svid.possession.nonce →
        Encodable g'.svid.possession.nonce → g.message ≠ g'.message) ∧
      bindings s.service.mint.audit = bindings first.mint.audit ++ s.granted.map Grant.entry := by
  intro s
  have inv : Inv first s := Inv.run kernel ops
  refine ⟨inv.bound, ?_, inv.audited⟩
  refine (List.pairwise_map.mp inv.distinct).imp (fun {g g'} other text text' same => other ?_)
  exact utf16Units_injective text text' ((possession_bytes_eq_iff _ _ _ _ _ _).mp same).2.1

end Mint

namespace Example

open MintRuns.Example

attribute [local instance] lineLibraries linePrivateKeys

/-- A certificate of this SPIFFE ID, the key of which has signed whatever is presented. -/
@[reducible] def doorLibraries : SvidLibraries where
  Certificate := Bytes
  loadDerX509Certificate := .ok
  uriNames _ := .ok (some [py "spiffe://acme.example/agent"])
  spiffeId uri := .ok ⟨py "acme.example", uri⟩
  trustDomain := .ok
  verifyClient _ _ _ _ := .ok ()
  publicKey _ := .ellipticCurve []
  ecdsaSha256Verify _ _ _ := true
  rsaPkcs1Sha256Verify _ _ _ := false

attribute [local instance] doorLibraries

def doorService : Service := .new lineService [[]] (py "acme.example")

def doorEnv : SpiffeEnv := ⟨lineEnv 1, (lineEnv 1).popNow, (lineEnv 1).popNow⟩

def doorSeed : VaidSeed := { rootSeed with publicKeyDer := some (List.replicate 32 0) }

def doorSvid : SvidPresentation := ⟨[], [], ⟨py "n", py "2030-01-01T00:00:00Z", []⟩⟩

def doorPop : MintPop := ⟨py "p", py "2030-01-01T00:00:00Z", [1]⟩

def mintsBound : Op := .mintRootWithSvid doorEnv doorSeed doorSvid doorPop none

theorem door_granted : (Runs.run step (start doorService) [mintsBound, mintsBound]).granted.length = 1 := by
  decide +kernel

theorem svid_grants_replayed :
    let s := Runs.run step (start doorService) [mintsBound, mintsBound]
    s.granted.length = 1 ∧ (∀ g ∈ s.granted, Bound doorService g) ∧
      s.granted.Pairwise (fun g g' => Encodable g.svid.possession.nonce →
        Encodable g'.svid.possession.nonce → g.message ≠ g'.message) ∧
      bindings s.service.mint.audit = bindings doorService.mint.audit ++ s.granted.map Grant.entry :=
  ⟨door_granted, svid_grants doorService lineKey [mintsBound, mintsBound]⟩

theorem mintRootWithSvid_reaches_door :
    ∃ verified key, verifySvidChain doorSvid.leaf doorSvid.intermediates doorService.trustBundle
        doorService.trustDomain none doorEnv.chainNow = .ok verified ∧ doorSeed.publicKeyDer = some key ∧
      ProvesHolder doorEnv.possessionNow verified.leaf key doorSvid.possession possessionFreshnessSecs ∧
      doorSvid.possession.nonce ∉ doorService.consumedSvidNonces ∧
      ((mintRootWithSvid doorEnv doorSeed doorSvid doorPop none).run doorService).2.consumedSvidNonces =
        insert doorSvid.possession.nonce doorService.consumedSvidNonces := by
  refine mintRootWithSvid_reaches doorEnv doorSeed doorSvid doorPop none doorService (fun same => ?_)
  have recorded :
      ((mintRootWithSvid doorEnv doorSeed doorSvid doorPop none).run doorService).2.mint.audit.entries.length =
        2 := by
    decide +kernel
  rw [same] at recorded
  cases recorded

end Example

end VaidSuite.Python.SpiffeMint
