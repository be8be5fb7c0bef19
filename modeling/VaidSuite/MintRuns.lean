import VaidSuite.MintSpec

/-! Runs of the mint: root mints and delegations in any order, against the documents
they returned. -/
namespace VaidSuite.MintRuns

open MintService (Call Delegable Frame)

/-- One call on the mint. -/
inductive Op where
  | mintRoot (env : MintEnv) (request : MintVaidRequest)
  | mintChild (env : MintEnv) (request : MintVaidRequest) (parent : Option Vaid)

namespace Op

def env : Op → MintEnv
  | mintRoot env _ => env
  | mintChild env _ _ => env

def request : Op → MintVaidRequest
  | mintRoot _ request => request
  | mintChild _ request _ => request

/-- The id that a call's document would have. -/
def freshId (op : Op) : VaidId := ⟨op.env.issue.agentId.uuid⟩

end Op

/-- A document the mint returned, and the parent it was delegated under. -/
inductive Event where
  | root (v : Vaid)
  | child (parent v : Vaid)

def Event.vaid : Event → Vaid
  | root v => v
  | child _ v => v

def issued (history : List Event) : List Vaid := history.map Event.vaid

structure State (L R A : Type) where
  service : MintService L R A
  history : List Event

section Steps

variable [Crypto] [Chrono] {L R A : Type} [LineageStore L] [AuditSink A]

def Op.program : Op → Call L R A MintVaidResponse
  | .mintRoot env request => MintService.mintRoot env request
  | .mintChild env request parent => MintService.mintChild env request parent

/-- The call alone, from start to end. -/
def Op.run (op : Op) (service : MintService L R A) :
    MintResult MintVaidResponse × MintService L R A :=
  op.program.run service

theorem Op.program_keeps (op : Op) {rel : MintService L R A → MintService L R A → Prop}
    (kept : MintService.Kept op.freshId rel) :
    (op.program : Call L R A MintVaidResponse).Guarantees rel := by
  cases op with
  | mintRoot env request => exact kept.mintRoot request
  | mintChild env request parent => exact kept.mintChild request parent

def Op.event : Op → Vaid → Event
  | .mintRoot _ _, v => .root v
  | .mintChild _ _ none, v => .root v
  | .mintChild _ _ (some parent), v => .child parent v

def step (s : State L R A) (op : Op) : State L R A :=
  match op.run s.service with
  | (.ok response, service) => ⟨service, s.history ++ [op.event response.vaid]⟩
  | (_, service) => ⟨service, s.history⟩

theorem step_of_run {s : State L R A} {op : Op} {response : MintVaidResponse}
    {service : MintService L R A} (ran : op.run s.service = (.ok response, service)) :
    step s op = ⟨service, s.history ++ [op.event response.vaid]⟩ := by
  simp only [step, ran]

/-- A service that has returned nothing yet. -/
def start (service : MintService L R A) : State L R A := ⟨service, []⟩

/-- The id a call draws has not been seen before. -/
structure Fresh (s : State L R A) (op : Op) : Prop where
  unrecorded : s.service.issuer.resolveParent op.freshId = .unknown
  unissued : ∀ v ∈ issued s.history, v.vaidId ≠ op.freshId ∧ v.parentVaid ≠ some op.freshId
  unnamed : op.request.seed.parentVaid ≠ some op.freshId

/-- A delegation names as its parent a document this mint returned. -/
def ParentIssued (s : State L R A) : Op → Prop
  | .mintRoot _ _ => True
  | .mintChild _ _ parent => ∀ p, parent = some p → p ∈ issued s.history

/-- A root mint that returns a document does not name as its parent one that this mint returned. -/
def RootUnattached (s : State L R A) : Op → Prop
  | .mintRoot env request => (∃ response, ((Op.mintRoot env request).run s.service).1 = .ok response) →
      ∀ p ∈ issued s.history, request.seed.parentVaid ≠ some p.vaidId
  | .mintChild _ _ _ => True

/-- A child as its mint left it: within its parent, and below an ancestry that the
lineage store holds. -/
structure DelegatedUnder (s : State L R A) (parent child : Vaid) : Prop where
  link : child.parentVaid = some parent.vaidId
  contained : Contained parent child
  tenant : child.tenantId = parent.tenantId
  ancestry : ∃ path, HasAncestry s.service.issuer.resolveParent parent path ∧
    (child.vaidId :: parent.vaidId :: path).Nodup ∧
    path.length + 1 ≤ s.service.maxDelegationDepth.val

variable [LawfulLineageStore L]

/-- A call that returned `v` is a root mint, or a delegation within its parent. -/
def Returned (s : State L R A) (op : Op) (v : Vaid) : Prop :=
  (∃ env request, op = .mintRoot env request) ∨
    ∃ env request p, op = .mintChild env request (some p) ∧ v.parentVaid = some p.vaidId ∧
      Contained p v ∧ v.tenantId = p.tenantId ∧
      ∃ chain, assembleLineage p s.service.issuer.resolveParent = .complete chain ∧
        chain.length - 1 + 1 ≤ s.service.maxDelegationDepth.val

/-- What one call does: it writes the lineage of its fresh id at most, and if it
returns a document then that id resolves to the document's own parent. -/
theorem step_cases (s : State L R A) (op : Op) :
    Frame op.freshId s.service (step s op).service ∧
      ((step s op).history = s.history ∨
        ∃ v, (step s op).history = s.history ++ [op.event v] ∧ v.vaidId = op.freshId ∧
          v.parentVaid = op.request.seed.parentVaid ∧
          (step s op).service.issuer.resolveParent op.freshId = .ofRecorded v.parentVaid ∧
          Returned s op v) := by
  have frame : Frame op.freshId s.service (op.run s.service).2 := by
    exact (op.program_keeps (Frame.kept _)).run (Frame.refl _) Frame.trans s.service
  unfold step
  split
  · rename_i response service ran
    rw [ran] at frame
    refine ⟨frame, .inr ⟨response.vaid, rfl, ?_⟩⟩
    cases op with
    | mintRoot env request =>
      obtain ⟨key, t, expires, audit, _, keyed, _, recorded, rfl, _, rfl⟩ :=
        (MintService.run_mintRoot_iff _ _ _ _ _).mp ran
      have parent := t.issuer.parentVaid_signedVaid env.issue request.seed.attributes key expires
      refine ⟨rfl, parent, ?_, .inl ⟨env, request, rfl⟩⟩
      exact (LawfulLineageStore.resolve_recorded _ _ _ recorded).trans (congrArg _ parent.symm)
    | mintChild env request parent =>
      obtain ⟨p, key, pop, expires, audit, rfl, delegable, issuable, signed, expiry, _, _, _, rfl⟩ :=
        (MintService.run_mintChild_iff _ _ _ _ _ _).mp ran
      have link := s.service.issuer.parentVaid_signedVaid env.issue request.seed.attributes key expires
      rw [← signed] at expiry ⊢
      refine ⟨rfl, link, ?_, .inr ⟨env, request, p, rfl, link.trans delegable.lineage,
        ⟨delegable.scope, delegable.caps, expiry⟩, congrArg TenantId.mk delegable.tenant.symm,
        delegable.depth⟩⟩
      exact (LawfulLineageStore.resolve_recorded _ _ _ issuable.recorded).trans
        (congrArg _ link.symm)
  · rename_i service failed ran
    rw [ran] at frame
    exact ⟨frame, .inl rfl⟩

omit [LawfulLineageStore L] in
theorem returned_of_grown {s : State L R A} {op : Op} {v : Vaid}
    (grown : (step s op).history = s.history ++ [op.event v]) :
    ∃ response, (op.run s.service).1 = .ok response := by
  unfold step at grown
  split at grown
  · rename_i response service ran
    exact ⟨response, congrArg Prod.fst ran⟩
  · simp at grown

/-- Every returned document is recorded under an id of its own, and every child is
still as its mint left it. -/
structure Inv (s : State L R A) : Prop where
  recorded : ∀ v ∈ issued s.history,
    s.service.issuer.resolveParent v.vaidId = .ofRecorded v.parentVaid
  distinct : ((issued s.history).map Vaid.vaidId).Nodup
  delegated : ∀ p c, Event.child p c ∈ s.history → DelegatedUnder s p c

omit [Crypto] [AuditSink A] [LawfulLineageStore L] in
theorem inv_start (service : MintService L R A) : Inv (start service) :=
  ⟨by simp [issued, start], by simp [issued, start], by simp [start]⟩

omit [Crypto] [Chrono] [AuditSink A] [LawfulLineageStore L] in
theorem pointers_of_recorded {s : State L R A} {v : Vaid}
    (recorded : s.service.issuer.resolveParent v.vaidId = .ofRecorded v.parentVaid) :
    LineageResolver.pointers s.service.issuer.resolveParent v.vaidId = some v.parentVaid := by
  unfold LineageResolver.pointers
  rw [recorded]
  cases v.parentVaid <;> rfl

omit [Crypto] [Chrono] [AuditSink A] [LawfulLineageStore L] in
/-- An ancestry meets recorded ids only, so a fresh id is not on it. -/
theorem not_mem_of_unrecorded {service : MintService L R A} {id : VaidId} {v : Vaid}
    {path : List VaidId} (unrecorded : service.issuer.resolveParent id = .unknown)
    (ancestry : HasAncestry service.issuer.resolveParent v path) : id ∉ path := by
  intro member
  obtain ⟨next, known⟩ := ancestry.known id member
  simp [LineageResolver.pointers, unrecorded, ParentResolution.toPointer] at known

omit [Crypto] [Chrono] [AuditSink A] [LawfulLineageStore L] in
theorem hasAncestry_frame {service service' : MintService L R A} {id : VaidId}
    (frame : Frame id service service') (unrecorded : service.issuer.resolveParent id = .unknown)
    {v : Vaid} {path : List VaidId} (ancestry : HasAncestry service.issuer.resolveParent v path) :
    HasAncestry service'.issuer.resolveParent v path := by
  refine ancestry.mono (fun other member => ?_)
  have distinct : other ≠ id := by
    rintro rfl
    exact not_mem_of_unrecorded unrecorded ancestry member
  exact congrArg ParentResolution.toPointer (frame.others other distinct)

theorem DelegatedUnder.step {s : State L R A} {op : Op} (fresh : Fresh s op) {p c : Vaid}
    (h : DelegatedUnder s p c) : DelegatedUnder (step s op) p c := by
  obtain ⟨frame, _⟩ := step_cases s op
  obtain ⟨path, ancestry, distinct, short⟩ := h.ancestry
  exact ⟨h.link, h.contained, h.tenant, path, hasAncestry_frame frame fresh.unrecorded ancestry,
    distinct, by rw [frame.depth]; exact short⟩

omit [Crypto] [Chrono] [LineageStore L] [AuditSink A] [LawfulLineageStore L] in
theorem issued_concat {s t : State L R A} {op : Op} {v : Vaid}
    (grown : t.history = s.history ++ [op.event v]) : issued t.history = issued s.history ++ [v] := by
  have vaid : (op.event v).vaid = v := by
    cases op with
    | mintRoot env request => rfl
    | mintChild env request p => cases p <;> rfl
  rw [grown, issued, List.map_append, List.map_singleton, vaid]
  rfl

theorem inv_step (s : State L R A) (op : Op) (inv : Inv s) (fresh : Fresh s op) :
    Inv (step s op) := by
  obtain ⟨frame, same | ⟨v, grown, id, parent, recorded, returned⟩⟩ := step_cases s op
  · refine ⟨fun v hv => ?_, by rw [same]; exact inv.distinct, fun p c hc => ?_⟩
    · rw [same] at hv
      rw [frame.others _ (fresh.unissued v hv).1]
      exact inv.recorded v hv
    · rw [same] at hc
      exact (inv.delegated p c hc).step fresh
  · have issued_ := issued_concat grown
    refine ⟨fun w hw => ?_, ?_, fun p c hc => ?_⟩
    · rw [issued_] at hw
      rcases List.mem_append.mp hw with old | new
      · rw [frame.others _ (fresh.unissued w old).1]
        exact inv.recorded w old
      · cases List.mem_singleton.mp new
        rw [id]
        exact recorded
    · rw [issued_, List.map_append, List.nodup_append]
      refine ⟨inv.distinct, List.nodup_singleton _, ?_⟩
      rintro _ hold _ hnew rfl
      obtain ⟨w, hw, same⟩ := List.mem_map.mp hold
      rw [List.map_singleton, List.mem_singleton, id] at hnew
      exact (fresh.unissued w hw).1 (same.trans hnew)
    · rw [grown] at hc
      rcases List.mem_append.mp hc with old | new
      · exact (inv.delegated p c old).step fresh
      · obtain ⟨env, request, rfl⟩ | ⟨env, request, q, rfl, link, contained, tenant, chain, complete,
          depth⟩ := returned
        · cases List.mem_singleton.mp new
        cases List.mem_singleton.mp new
        obtain ⟨path, ancestry, distinct, _, rfl⟩ := (assembleLineage_eq_complete_iff _ _ _).mp complete
        refine ⟨link, contained, tenant, path, hasAncestry_frame frame fresh.unrecorded ancestry,
          List.nodup_cons.mpr ⟨?_, distinct⟩, ?_⟩
        · rw [id, List.mem_cons, not_or]
          refine ⟨fun same => fresh.unnamed ?_, not_mem_of_unrecorded fresh.unrecorded ancestry⟩
          rw [same, ← link, parent]
        · rw [frame.depth]
          simpa using depth

theorem inv_run {s : State L R A} (inv : Inv s) {ops : List Op} (fresh : Runs.Along step Fresh s ops) :
    Inv (Runs.run step s ops) :=
  Runs.invariant _ _ inv_step inv fresh

theorem maxDelegationDepth_run (s : State L R A) (ops : List Op) :
    (Runs.run step s ops).service.maxDelegationDepth = s.service.maxDelegationDepth :=
  Runs.invariant (fun t => t.service.maxDelegationDepth = s.service.maxDelegationDepth)
    (fun _ _ => True)
    (fun t op same _ => (step_cases t op).1.depth.trans same) rfl
    (Runs.Along.of_forall (fun _ _ => trivial) s ops)

/-- Every document with a returned parent was delegated under it. -/
def Attached (s : State L R A) : Prop :=
  ∀ v ∈ issued s.history, ∀ p ∈ issued s.history, v.parentVaid = some p.vaidId →
    Event.child p v ∈ s.history

theorem attached_step {s : State L R A} {op : Op} (inv : Inv s) (attached : Attached s)
    (fresh : Fresh s op) (parentIssued : ParentIssued s op) (unattached : RootUnattached s op) :
    Attached (step s op) := by
  obtain ⟨_, same | ⟨v, grown, id, parent, _, returned⟩⟩ := step_cases s op
  · unfold Attached
    rw [same]
    exact attached
  intro w hw p hp link
  rw [issued_concat grown] at hw hp
  rw [grown]
  rcases List.mem_append.mp hp with oldParent | newParent
  · rcases List.mem_append.mp hw with old | new
    · exact List.mem_append_left _ (attached w old p oldParent link)
    · cases List.mem_singleton.mp new
      rcases returned with ⟨env, request, rfl⟩ | ⟨env, request, q, rfl, link', _⟩
      · exact absurd (parent.symm.trans link) (unattached (returned_of_grown grown) p oldParent)
      · have sameId : q.vaidId = p.vaidId := Option.some.inj (link'.symm.trans link)
        have sameDoc : q = p :=
          List.inj_on_of_nodup_map inv.distinct (parentIssued q rfl) oldParent sameId
        exact List.mem_append_right _ (List.mem_singleton.mpr (sameDoc ▸ rfl))
  · cases List.mem_singleton.mp newParent
    rcases List.mem_append.mp hw with old | new
    · exact absurd (link.trans (congrArg some id)) (fresh.unissued w old).2
    · cases List.mem_singleton.mp new
      exact absurd (parent.symm.trans (link.trans (congrArg some id))) fresh.unnamed

/-- The number of parent hops through `documents` to a parentless one. -/
inductive Hops (documents : List Vaid) : Vaid → Nat → Prop where
  | root {v : Vaid} : v.parentVaid = none → Hops documents v 0
  | hop {v p : Vaid} {n : Nat} : v.parentVaid = some p.vaidId → p ∈ documents →
      Hops documents p n → Hops documents v (n + 1)

omit [Crypto] [AuditSink A] [LawfulLineageStore L] in
theorem Hops.ancestry {s : State L R A} (inv : Inv s) {v : Vaid} {n : Nat}
    (hops : Hops (issued s.history) v n) :
    ∃ path, HasAncestry s.service.issuer.resolveParent v path ∧ path.length = n := by
  induction hops with
  | root parentless =>
    refine ⟨[], ?_, rfl⟩
    rw [HasAncestry, parentless]
    exact .root
  | @hop v p n link member _ ih =>
    obtain ⟨path, ancestry, rfl⟩ := ih
    refine ⟨p.vaidId :: path, ?_, rfl⟩
    rw [HasAncestry, link]
    exact .hop (pointers_of_recorded (inv.recorded p member)) ancestry

omit [Crypto] [AuditSink A] [LawfulLineageStore L] in
theorem DelegatedUnder.childAncestry {s : State L R A} (inv : Inv s) {p c : Vaid}
    (h : DelegatedUnder s p c) (parent : p ∈ issued s.history) :
    ∃ path, HasAncestry s.service.issuer.resolveParent p path ∧
      HasAncestry s.service.issuer.resolveParent c (p.vaidId :: path) ∧
      (c.vaidId :: p.vaidId :: path).Nodup ∧
      path.length + 1 ≤ s.service.maxDelegationDepth.val := by
  obtain ⟨path, ancestry, distinct, short⟩ := h.ancestry
  refine ⟨path, ancestry, ?_, distinct, short⟩
  rw [HasAncestry, h.link]
  exact .hop (pointers_of_recorded (inv.recorded p parent)) ancestry

/-- In every run whose root mints are not attached to documents of this mint, every
returned document with a returned parent is within that parent and within the depth
limit. -/
theorem issued_within_parent (service : MintService L R A) (ops : List Op)
    (along : Runs.Along step (fun s op => Fresh s op ∧ ParentIssued s op ∧ RootUnattached s op)
      (start service) ops) :
    let s := Runs.run step (start service) ops
    ∀ v ∈ issued s.history, ∀ p ∈ issued s.history, v.parentVaid = some p.vaidId →
      Contained p v ∧ v.tenantId = p.tenantId ∧
        (∃ path, HasAncestry s.service.issuer.resolveParent v path ∧
          path.length ≤ service.maxDelegationDepth.val) ∧
        ∀ n, Hops (issued s.history) v n → n ≤ service.maxDelegationDepth.val := by
  intro s v hv p hp link
  obtain ⟨inv, attached⟩ : Inv s ∧ Attached s :=
    Runs.invariant (fun t => Inv t ∧ Attached t) _
      (fun t op h good => ⟨inv_step t op h.1 good.1,
        attached_step h.1 h.2 good.1 good.2.1 good.2.2⟩)
      ⟨inv_start service, by simp [Attached, issued, start]⟩ along
  have under := inv.delegated p v (attached v hv p hp link)
  obtain ⟨path, _, ancestry, _, short⟩ := under.childAncestry inv hp
  rw [maxDelegationDepth_run] at short
  refine ⟨under.contained, under.tenant, ⟨_, ancestry, short⟩, fun n hops => ?_⟩
  obtain ⟨path', ancestry', rfl⟩ := hops.ancestry inv
  rw [ancestry'.unique ancestry]
  exact short

/-- The depth that the mint's own check gives a parent: its assembled lineage counts the parent too. -/
def AtDepth (s : State L R A) (v : Vaid) (depth : Nat) : Prop :=
  ∃ lineage, assembleLineage v s.service.issuer.resolveParent = .complete lineage ∧
    lineage.length = depth + 1

omit [Crypto] [AuditSink A] [LawfulLineageStore L] in
/-- A child stands one hop below its parent, and its lineage assembles exactly when that depth is
short of the bound. -/
theorem DelegatedUnder.assembles_iff {s : State L R A} (inv : Inv s) {p c : Vaid}
    (h : DelegatedUnder s p c) (parent : p ∈ issued s.history) :
    ∃ depth, AtDepth s p depth ∧ depth + 1 ≤ s.service.maxDelegationDepth.val ∧
      ((∃ lineage, assembleLineage c s.service.issuer.resolveParent = .complete lineage) ↔
        depth + 1 < maxLineageDepth) := by
  obtain ⟨path, ancestry, childAncestry, distinct, within⟩ := h.childAncestry inv parent
  have room : path.length + 1 ≤ maxLineageDepth := within.trans s.service.maxDelegationDepth.bounded
  refine ⟨path.length, ⟨_, (assembleLineage_eq_complete_iff _ _ _).mpr
    ⟨path, ancestry, (List.nodup_cons.mp distinct).2, room, rfl⟩, by simp⟩, within, ?_⟩
  constructor
  · rintro ⟨lineage, complete⟩
    obtain ⟨path', ancestry', _, short, _⟩ := (assembleLineage_eq_complete_iff _ _ _).mp complete
    rwa [ancestry'.unique childAncestry] at short
  · intro short
    exact ⟨_, (assembleLineage_eq_complete_iff _ _ _).mpr
      ⟨p.vaidId :: path, childAncestry, distinct, short, rfl⟩⟩

/-- Over every run, a child returned under a parent of this mint stands one hop below it, within
the depth limit, and its lineage assembles exactly when that depth is short of the lineage bound.
Under a limit that is short of the bound, every child's lineage assembles. -/
theorem child_assembles_iff (service : MintService L R A) (ops : List Op)
    (fresh : Runs.Along step Fresh (start service) ops) :
    let s := Runs.run step (start service) ops
    let Assembles (v : Vaid) := ∃ lineage,
      assembleLineage v s.service.issuer.resolveParent = .complete lineage
    (∀ p c, Event.child p c ∈ s.history → p ∈ issued s.history →
      ∃ depth, AtDepth s p depth ∧ depth + 1 ≤ service.maxDelegationDepth.val ∧
        (Assembles c ↔ depth + 1 < maxLineageDepth)) ∧
    (service.maxDelegationDepth.val < maxLineageDepth →
      ∀ p c, Event.child p c ∈ s.history → p ∈ issued s.history → Assembles c) := by
  intro s Assembles
  have inv : Inv s := inv_run (inv_start service) fresh
  have children : ∀ p c, Event.child p c ∈ s.history → p ∈ issued s.history →
      ∃ depth, AtDepth s p depth ∧ depth + 1 ≤ service.maxDelegationDepth.val ∧
        (Assembles c ↔ depth + 1 < maxLineageDepth) := by
    intro p c delegated parent
    obtain ⟨depth, stands, within, assembles⟩ :=
      (inv.delegated p c delegated).assembles_iff inv parent
    rw [maxDelegationDepth_run] at within
    exact ⟨depth, stands, within, assembles⟩
  refine ⟨children, fun short p c delegated parent => ?_⟩
  obtain ⟨depth, _, within, assembles⟩ := children p c delegated parent
  exact assembles.mpr (within.trans_lt short)

end Steps

section Example

local instance chainCrypto : Crypto := .standIn

local instance chainChrono : Chrono :=
  .table [(1893456000, "2030-01-01T00:00:00Z"), (1893459600, "2030-01-01T01:00:00Z")]

def chainIssuer : ReferenceIssuer InMemoryLineageStore InMemoryRevocationList :=
  .withKey ⟨[1]⟩ 1 ⟨"vaid.example", isValidTrustDomain_example⟩

def chainService : MintService InMemoryLineageStore InMemoryRevocationList InMemoryAudit :=
  ⟨chainIssuer, ⟨[]⟩, ∅, ⟨maxLineageDepth, maxLineageDepth_pos, le_refl maxLineageDepth⟩⟩

def chainNow : Instant := ⟨1893456000, 0⟩

def chainId (n : Nat) : VaidId := ⟨.fromU128 n⟩

def chainNonce (n : Nat) : String := String.ofList (List.replicate n 'n')

def chainParent : Nat → Option VaidId
  | 0 => none
  | n + 1 => some (chainId n)

def chainSeed (n : Nat) : VaidSeed where
  agentClass := "researcher"
  version := "1.0.0"
  tenantId := "acme"
  parentVaid := chainParent n
  scopeBoundary := []
  capabilitySet := []
  publicKeyDer := some [2]

def chainPop (n : Nat) : MintPop where
  nonce := chainNonce n
  issuedAt := chainNow
  signature := signPayload ((chainSeed n).popPayload [2] (chainNonce n) chainNow).toJson ⟨[2]⟩

def chainRequest (n : Nat) : MintVaidRequest := ⟨chainSeed n, some (chainPop n)⟩

def chainEnv (n : Nat) : MintEnv := ⟨permitAll, chainNow, chainNow, ⟨⟨.fromU128 n⟩, chainNow, ⟨[2]⟩⟩⟩

def chainVaid (n : Nat) : Vaid :=
  chainIssuer.signedVaid (chainEnv n).issue (chainSeed n).attributes [2] ⟨1893459600, 0⟩

def chainOp : Nat → Op
  | 0 => .mintRoot (chainEnv 0) (chainRequest 0)
  | n + 1 => .mintChild (chainEnv (n + 1)) (chainRequest (n + 1)) (some (chainVaid n))

def chainEvent : Nat → Event
  | 0 => .root (chainVaid 0)
  | n + 1 => .child (chainVaid n) (chainVaid (n + 1))

/-- The state once the first `n` documents of the chain have been minted. -/
structure ChainState (n : Nat)
    (s : State InMemoryLineageStore InMemoryRevocationList InMemoryAudit) : Prop where
  issuer : { s.service.issuer with lineage := .new } = chainIssuer
  lineage : ∀ k, k ≤ maxLineageDepth → s.service.issuer.lineage.entries (chainId k) =
    if k < n then some (chainParent k) else none
  nonces : ∀ k, chainNonce k ∈ s.service.consumedPopNonces ↔ k < n
  depth : s.service.maxDelegationDepth.val = maxLineageDepth
  history : s.history = (List.range n).map chainEvent

theorem chainId_injective {m n : Nat} (hm : m ≤ maxLineageDepth) (hn : n ≤ maxLineageDepth)
    (same : chainId m = chainId n) : m = n :=
  have large : maxLineageDepth < 16 ^ 32 := by decide
  Uuid.fromU128_injective (Nat.lt_of_le_of_lt hm large) (Nat.lt_of_le_of_lt hn large)
    (congrArg VaidId.uuid same)

theorem chainNonce_injective {m n : Nat} (same : chainNonce m = chainNonce n) : m = n := by
  have lists := congrArg String.toList same
  simp only [chainNonce, String.toList_ofList] at lists
  simpa using congrArg List.length lists

theorem ChainState.ancestry {n : Nat}
    {s : State InMemoryLineageStore InMemoryRevocationList InMemoryAudit} (h : ChainState n s)
    {k : Nat} (minted : k ≤ n) (bounded : k ≤ maxLineageDepth) :
    Ancestry.Path s.service.issuer.lineage.entries (chainParent k)
      ((List.range k).reverse.map chainId) := by
  induction k with
  | zero => exact .root
  | succ k ih =>
    rw [List.range_succ, List.reverse_append, List.reverse_singleton, List.singleton_append,
      List.map_cons]
    exact .hop ((h.lineage k (by omega)).trans (if_pos (by omega))) (ih (by omega) (by omega))

theorem chain_nodup {n : Nat} (bounded : n ≤ maxLineageDepth) :
    (chainId n :: (List.range n).reverse.map chainId).Nodup := by
  have whole : chainId n :: (List.range n).reverse.map chainId =
      (List.range (n + 1)).reverse.map chainId := by
    simp [List.range_succ]
  rw [whole]
  refine List.Nodup.map_on (fun a ha b hb same => ?_) (List.nodup_reverse.mpr List.nodup_range)
  simp only [List.mem_reverse, List.mem_range] at ha hb
  exact chainId_injective (by omega) (by omega) same

theorem chainVaid_parentVaid (n : Nat) : (chainVaid n).parentVaid = chainParent n :=
  ReferenceIssuer.parentVaid_signedVaid _ _ _ _ _

theorem chain_possession (n : Nat) :
    MintService.ProvesPossession chainNow (chainSeed n) [2] (chainPop n) where
  fresh := by
    show ((chainNow.secondsSince chainNow).natAbs : Int) ≤ mintPopFreshnessSecs
    decide
  signed := verifySignedPayload_signPayload Crypto.standIn_signaturesVerify _ ⟨[2]⟩

theorem ChainState.signed {n : Nat}
    {s : State InMemoryLineageStore InMemoryRevocationList InMemoryAudit} (h : ChainState n s)
    (env : MintEnv) (request : MintVaidRequest) (key : Bytes) (expires : Instant) :
    s.service.signedVaid env request key expires =
      chainIssuer.signedVaid env.issue request.seed.attributes key expires := by
  show ({ s.service.issuer with lineage := InMemoryLineageStore.new } :
      ReferenceIssuer InMemoryLineageStore InMemoryRevocationList).signedVaid _ _ _ _ = _
  rw [h.issuer]

theorem ChainState.ceiling {n : Nat}
    {s : State InMemoryLineageStore InMemoryRevocationList InMemoryAudit} (h : ChainState n s)
    (k : Nat) {notAfter : Option String}
    (either : notAfter = none ∨ notAfter = some "2030-01-01T01:00:00Z") :
    s.service.issuer.expiresAt (chainEnv k).issue notAfter = .ok ⟨1893459600, 0⟩ := by
  show ({ s.service.issuer with lineage := InMemoryLineageStore.new } :
      ReferenceIssuer InMemoryLineageStore InMemoryRevocationList).expiresAt _ _ = _
  rw [h.issuer]
  rcases either with rfl | rfl <;> rfl

theorem ChainState.unspent {n : Nat}
    {s : State InMemoryLineageStore InMemoryRevocationList InMemoryAudit} (h : ChainState n s) :
    (chainPop n).nonce ∉ s.service.consumedPopNonces :=
  fun spent => Nat.lt_irrefl n ((h.nonces n).mp spent)

theorem ChainState.delegable {n : Nat}
    {s : State InMemoryLineageStore InMemoryRevocationList InMemoryAudit} (h : ChainState (n + 1) s)
    (bounded : n + 1 ≤ maxLineageDepth) :
    Delegable s.service chainNow (chainSeed (n + 1)) (chainVaid n) where
  depth := by
    have ancestry : HasAncestry s.service.issuer.resolveParent (chainVaid n)
        ((List.range n).reverse.map chainId) := by
      rw [HasAncestry, chainVaid_parentVaid]
      show Ancestry.Path (LineageResolver.pointers s.service.issuer.lineage.resolveParent) _ _
      rw [InMemoryLineageStore.pointers_eq]
      exact h.ancestry (by omega) (by omega)
    refine ⟨_, (assembleLineage_eq_complete_iff _ _ _).mpr ⟨_, ancestry, chain_nodup (by omega), ?_, rfl⟩,
      ?_⟩
    · simpa using bounded
    · simpa [h.depth] using bounded
  tenant := rfl
  lineage := rfl
  scope := rfl
  caps := rfl
  alive := rfl

theorem chain_run {n : Nat} {s : State InMemoryLineageStore InMemoryRevocationList InMemoryAudit}
    (h : ChainState n s) (bounded : n ≤ maxLineageDepth) :
    ∃ response audit, response.vaid = chainVaid n ∧ (chainOp n).run s.service = (.ok response,
      { (s.service.afterPop (chainPop n)).afterIssue (chainEnv n) (chainRequest n) with
        audit := audit }) := by
  cases n with
  | zero =>
    have signed := h.signed (chainEnv 0) (chainRequest 0) [2] ⟨1893459600, 0⟩
    exact ⟨⟨chainVaid 0, false, none⟩, _, rfl, (MintService.run_mintRoot_iff _ _ _ _ _).mpr
      ⟨[2], _, _, _, rfl, .inl ⟨chainPop 0, rfl, rfl, chain_possession 0, h.unspent, rfl⟩,
        h.ceiling 0 (.inl rfl), rfl, congrArg (MintVaidResponse.mk · false none) signed, rfl, rfl⟩⟩
  | succ n =>
    exact ⟨⟨chainVaid (n + 1), _, _⟩, _, rfl, (MintService.run_mintChild_iff _ _ _ _ _ _).mpr
      ⟨chainVaid n, [2], chainPop (n + 1), _, _, rfl, h.delegable bounded,
        ⟨rfl, rfl, chain_possession (n + 1), h.unspent, h.ceiling (n + 1) (.inr rfl), rfl⟩,
        h.signed _ _ _ _, rfl, rfl, rfl, rfl, rfl⟩⟩

theorem chain_step {n : Nat} {s : State InMemoryLineageStore InMemoryRevocationList InMemoryAudit}
    (h : ChainState n s) (bounded : n ≤ maxLineageDepth) : ChainState (n + 1) (step s (chainOp n)) := by
  obtain ⟨response, audit, vaid, ran⟩ := chain_run h bounded
  have event : (chainOp n).event response.vaid = chainEvent n := by
    rw [vaid]
    cases n <;> rfl
  rw [step_of_run ran, event]
  refine ⟨h.issuer, fun k hk => ?_, fun k => ?_, h.depth, ?_⟩
  · have entries : (s.service.issuer.lineage.record (chainId n) (chainParent n)).entries (chainId k) =
        if k < n + 1 then some (chainParent k) else none := ?_
    · exact entries
    simp only [InMemoryLineageStore.record]
    by_cases same : k = n
    · subst same
      simp
    · have distinct : chainId k ≠ chainId n := fun h => same (chainId_injective hk bounded h)
      rw [Function.update_of_ne distinct, h.lineage k hk]
      by_cases below : k < n
      · rw [if_pos below, if_pos (by omega)]
      · rw [if_neg below, if_neg (by omega)]
  · show chainNonce k ∈ insert (chainNonce n) s.service.consumedPopNonces ↔ _
    rw [Finset.mem_insert, h.nonces]
    constructor
    · rintro (same | below)
      · have := chainNonce_injective same
        omega
      · omega
    · intro below
      by_cases same : k = n
      · exact .inl (same ▸ rfl)
      · exact .inr (by omega)
  · rw [h.history, List.range_succ, List.map_append, List.map_singleton]

theorem chain_start : ChainState 0 (start chainService) :=
  ⟨rfl, fun _ _ => rfl, fun _ => by simp [start, chainService], rfl, rfl⟩

theorem chain_state {n : Nat} (bounded : n ≤ maxLineageDepth + 1) :
    ChainState n (Runs.run step (start chainService) ((List.range n).map chainOp)) := by
  induction n with
  | zero => exact chain_start
  | succ n ih =>
    rw [List.range_succ, List.map_append, List.map_singleton, Runs.run_concat]
    exact chain_step (ih (by omega)) (by omega)

theorem ChainState.documents {n : Nat}
    {s : State InMemoryLineageStore InMemoryRevocationList InMemoryAudit} (h : ChainState n s) :
    issued s.history = (List.range n).map chainVaid := by
  rw [h.history, issued, List.map_map]
  refine List.map_congr_left (fun k _ => ?_)
  cases k <;> rfl

theorem ChainState.mem_history {n : Nat}
    {s : State InMemoryLineageStore InMemoryRevocationList InMemoryAudit} (h : ChainState n s)
    {k : Nat} (minted : k < n) : chainEvent k ∈ s.history := by
  rw [h.history]
  exact List.mem_map_of_mem (List.mem_range.mpr minted)

theorem ChainState.mem_issued {n : Nat}
    {s : State InMemoryLineageStore InMemoryRevocationList InMemoryAudit} (h : ChainState n s)
    {k : Nat} (minted : k < n) : chainVaid k ∈ issued s.history := by
  rw [h.documents]
  exact List.mem_map_of_mem (List.mem_range.mpr minted)

theorem ChainState.fresh {n : Nat}
    {s : State InMemoryLineageStore InMemoryRevocationList InMemoryAudit} (h : ChainState n s)
    (bounded : n ≤ maxLineageDepth) {op : Op} (draws : op.freshId = chainId n)
    (names : op.request.seed.parentVaid = chainParent n) : Fresh s op := by
  have others : ∀ k, k < n → chainId k ≠ chainId n := fun k below same =>
    absurd (chainId_injective (by omega) bounded same) (by omega)
  have parents : ∀ k, k ≤ n → chainParent k ≠ some (chainId n) := by
    intro k below same
    cases k with
    | zero => cases same
    | succ k => exact others k (by omega) (Option.some.inj same)
  refine ⟨?_, fun v hv => ?_, ?_⟩
  · show s.service.issuer.lineage.resolveParent op.freshId = .unknown
    rw [draws, InMemoryLineageStore.resolveParent, h.lineage n bounded, if_neg (Nat.lt_irrefl n)]
  · rw [h.documents] at hv
    obtain ⟨k, hk, rfl⟩ := List.mem_map.mp hv
    rw [List.mem_range] at hk
    rw [draws, chainVaid_parentVaid]
    exact ⟨others k hk, parents k (by omega)⟩
  · rw [draws, names]
    exact parents n (Nat.le_refl n)

theorem chain_along {n : Nat} (bounded : n ≤ maxLineageDepth + 1) :
    Runs.Along step (fun s op => Fresh s op ∧ ParentIssued s op ∧ RootUnattached s op) (start chainService)
      ((List.range n).map chainOp) := by
  induction n with
  | zero => exact .nil
  | succ n ih =>
    rw [List.range_succ, List.map_append, List.map_singleton]
    refine (ih (by omega)).concat ?_
    have state := chain_state (n := n) (by omega)
    refine ⟨state.fresh (by omega) (by cases n <;> rfl) (by cases n <;> rfl), ?_, ?_⟩
    · cases n with
      | zero => trivial
      | succ n =>
        rintro _ ⟨⟩
        exact state.mem_issued (by omega)
    · cases n with
      | zero =>
        intro _ p hp
        cases hp
      | succ n => trivial

theorem ChainState.unassembled {n : Nat}
    {s : State InMemoryLineageStore InMemoryRevocationList InMemoryAudit} (h : ChainState (n + 1) s)
    (deepest : n = maxLineageDepth) :
    assembleLineage (chainVaid n) s.service.issuer.resolveParent = .incomplete := by
  have ancestry : HasAncestry s.service.issuer.resolveParent (chainVaid n)
      ((List.range n).reverse.map chainId) := by
    rw [HasAncestry, chainVaid_parentVaid]
    show Ancestry.Path (LineageResolver.pointers s.service.issuer.lineage.resolveParent) _ _
    rw [InMemoryLineageStore.pointers_eq]
    exact h.ancestry (Nat.le_succ n) (Nat.le_of_eq deepest)
  rw [assembleLineage_eq_incomplete_iff]
  intro path other _
  rw [other.unique ancestry]
  simp [deepest]

/-- The deepest delegation the largest limit allows has one document too many. -/
theorem deepest_unassembled :
    let s := Runs.run step (start chainService) ((List.range (maxLineageDepth + 1)).map chainOp)
    validateMaxDelegationDepth maxLineageDepth = .ok chainService.maxDelegationDepth ∧
      Runs.Along step Fresh (start chainService) ((List.range (maxLineageDepth + 1)).map chainOp) ∧
      ∃ p c, Event.child p c ∈ s.history ∧ p ∈ issued s.history ∧
        assembleLineage c s.service.issuer.resolveParent = .incomplete := by
  intro s
  have state : ChainState (maxLineageDepth + 1) s := chain_state (Nat.le_refl _)
  have deep : ∀ n, n + 1 = maxLineageDepth → Event.child (chainVaid n) (chainVaid (n + 1)) ∈ s.history ∧
      chainVaid n ∈ issued s.history ∧
      assembleLineage (chainVaid (n + 1)) s.service.issuer.resolveParent = .incomplete := by
    intro n last
    rw [← last] at state
    exact ⟨state.mem_history (k := n + 1) (by omega), state.mem_issued (by omega),
      state.unassembled last⟩
  exact ⟨(validateMaxDelegationDepth_eq_ok_iff _ _).mpr rfl,
    (chain_along (Nat.le_refl _)).imp (fun _ _ good => good.1), _, _, deep 1023 rfl⟩

theorem chainVaid_within_parent : Contained (chainVaid 0) (chainVaid 1) := by
  have state := chain_state (n := 2) (by decide)
  exact (issued_within_parent chainService ((List.range 2).map chainOp) (chain_along (by decide))
    (chainVaid 1) (state.mem_issued (by decide)) (chainVaid 0) (state.mem_issued (by decide))
    (chainVaid_parentVaid 1)).1

theorem chainVaid_assembles_iff :
    let s := Runs.run step (start chainService) ((List.range 2).map chainOp)
    ∃ depth, AtDepth s (chainVaid 0) depth ∧ depth + 1 ≤ maxLineageDepth ∧
      ((∃ lineage, assembleLineage (chainVaid 1) s.service.issuer.resolveParent = .complete lineage) ↔
        depth + 1 < maxLineageDepth) := by
  have fresh : Runs.Along step Fresh (start chainService) ((List.range 2).map chainOp) :=
    (chain_along (by decide)).imp (fun _ _ good => good.1)
  have state := chain_state (n := 2) (by decide)
  have delegated : Event.child (chainVaid 0) (chainVaid 1) ∈ _ :=
    state.mem_history (k := 1) (by decide)
  exact (child_assembles_iff chainService ((List.range 2).map chainOp) fresh).1
    (chainVaid 0) (chainVaid 1) delegated (state.mem_issued (by decide))

/-- A root mint under the chain's root, of another tenant and with a capability
that the root does not hold. -/
def attachedRequest : MintVaidRequest where
  seed := { chainSeed 1 with tenantId := "other", capabilitySet := ["admin"], publicKeyDer := none }
  pop := none

def attachedVaid : Vaid :=
  chainIssuer.signedVaid (chainEnv 1).issue attachedRequest.seed.attributes [2] ⟨1893459600, 0⟩

theorem ChainState.attach {s : State InMemoryLineageStore InMemoryRevocationList InMemoryAudit}
    (h : ChainState 1 s) : issued (step s (.mintRoot (chainEnv 1) attachedRequest)).history =
      issued s.history ++ [attachedVaid] := by
  have ran : (Op.mintRoot (chainEnv 1) attachedRequest).run s.service =
      (.ok ⟨attachedVaid, false, none⟩, _) :=
    (MintService.run_mintRoot_iff _ _ _ _ _).mpr
      ⟨[2], _, ⟨1893459600, 0⟩, _, rfl, .inr ⟨rfl, rfl, rfl⟩, h.ceiling 1 (.inl rfl), rfl,
        congrArg (MintVaidResponse.mk · false none) (h.signed _ _ _ _), rfl, rfl⟩
  rw [step_of_run ran]
  exact List.map_append

def attachedOps : List Op := [chainOp 0, .mintRoot (chainEnv 1) attachedRequest]

theorem attachedOps_issued : issued (Runs.run step (start chainService) attachedOps).history =
    [chainVaid 0, attachedVaid] := by
  have state : ChainState 1 (step (start chainService) (chainOp 0)) := chain_step chain_start (by decide)
  rw [attachedOps, Runs.run_cons, Runs.run_cons, Runs.run_nil, state.attach, state.documents]
  rfl

theorem attachedOps_along : Runs.Along step (fun s op => Fresh s op ∧ ParentIssued s op)
    (start chainService) attachedOps := by
  have state : ChainState 1 (step (start chainService) (chainOp 0)) := chain_step chain_start (by decide)
  exact .cons ⟨chain_start.fresh (by decide) rfl rfl, trivial⟩
    (.cons ⟨state.fresh (by decide) rfl rfl, trivial⟩ .nil)

theorem attachedVaid_exceeds_parent :
    Runs.Along step (fun s op => Fresh s op ∧ ParentIssued s op) (start chainService) attachedOps ∧
      ∃ v p, v ∈ issued (Runs.run step (start chainService) attachedOps).history ∧
        p ∈ issued (Runs.run step (start chainService) attachedOps).history ∧
        v.parentVaid = some p.vaidId ∧ v.tenantId ≠ p.tenantId ∧
        capsAttenuate p v.capabilitySet = false := by
  refine ⟨attachedOps_along, attachedVaid, chainVaid 0, ?_, ?_,
    ReferenceIssuer.parentVaid_signedVaid _ _ _ _ _, by decide, by decide⟩
  · rw [attachedOps_issued]
    exact .tail _ (.head _)
  · rw [attachedOps_issued]
    exact .head _

end Example

end VaidSuite.MintRuns
