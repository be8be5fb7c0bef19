import VaidSuite.Document

/-! Deserializing a VAID from a JSON value, and what serializing it again gives
back. -/
namespace VaidSuite

namespace Deserialize

/-- A `u8`: an integer in range. A float is refused. -/
def u8 (j : JsonValue) : Option UInt8 :=
  match j.val with
  | .num (.int n) => if 0 ≤ n ∧ n < 256 then some (UInt8.ofNat n.toNat) else none
  | _ => none

def string (j : JsonValue) : Option String := j.val.asStr

def vec {α : Type} (item : JsonValue → Option α) (j : JsonValue) : Option (List α) :=
  j.items?.bind (fun items => items.mapM item)

def presentedUuid (j : JsonValue) : Option PresentedUuid :=
  match string j with
  | none => none
  | some raw =>
    match h : Uuid.parseStr raw with
    | none => none
    | some uuid => some ⟨raw, uuid, h⟩

/-- `Option<T>`: a JSON null is `None`. -/
def option {α : Type} (value : JsonValue → Option α) (j : JsonValue) : Option (Option α) :=
  match j.val with
  | .null => some none
  | _ => (value j).map some

/-- The derived `Raw` of an entry: an object of exactly the two fields, or the
two fields by position. -/
def rawEntry (j : JsonValue) : Option (String × JsonValue) :=
  match j.items? with
  | some [kind, value] => (string kind).map (·, value)
  | some _ => none
  | none => do
    let members ← j.members?
    if members.all (fun m => m.1 == "kind" || m.1 == "value") then
      let kind ← (j.member? "kind").bind string
      let value ← j.member? "value"
      some (kind, value)
    else none

def scopeBoundaryEntry (j : JsonValue) : Option ScopeBoundaryEntry :=
  (rawEntry j).bind (fun raw => (ScopeBoundaryEntry.new raw.1 raw.2).toOption)

/-- The members that no field names, collected by `flatten`. -/
def unknownFields (j : JsonValue) : Option UnknownFields :=
  match j with
  | ⟨.obj members, h⟩ =>
    have h : SortedMap.Sorted members ∧ Json.orderedMembers members = true := by
      simpa [Json.ordered] using h
    some {
      members := members.filter (fun m => m.1 ∉ vaidMemberNames)
      sorted := h.1.filter _
      ordered := Json.orderedMembers_filter _ h.2
      unnamed := fun m hm => by simpa using (List.mem_filter.mp hm).2 }
  | _ => none

def field {α : Type} (j : JsonValue) (name : String) (value : JsonValue → Option α) : Option α :=
  (j.member? name).bind value

/-- A `#[serde(default)]` field. -/
def fieldOr {α : Type} (j : JsonValue) (name : String) (absent : α)
    (value : JsonValue → Option α) : Option α :=
  match j.member? name with
  | none => some absent
  | some member => value member

def vaid (j : JsonValue) : Option Vaid := do
  let unknownFields ← unknownFields j
  let sigVersion ← fieldOr j "sig_version" 0 u8
  let presentedVaidId ← field j "vaid_id" presentedUuid
  let presentedAgentId ← field j "agent_id" presentedUuid
  let agentClass ← field j "agent_class" string
  let version ← field j "version" string
  let tenantId ← field j "tenant_id" string
  let issuedAtAsPresented ← field j "issued_at" string
  let expiresAtAsPresented ← field j "expires_at" string
  let publicKeyDer ← field j "public_key_der" (vec u8)
  let kernelSignature ← field j "kernel_signature" (vec u8)
  let presentedParent ← fieldOr j "parent_vaid" none (fun m => (option presentedUuid m).map some)
  let scopeBoundary ← field j "scope_boundary" (vec scopeBoundaryEntry)
  let lineageHash ← field j "lineage_hash" string
  let capabilitySet ← field j "capability_set" (vec string)
  let trustDomain ← field j "trust_domain" string
  let kernelKeyThumbprint ← field j "kernel_key_thumbprint" string
  some {
    sigVersion, presentedVaidId, presentedAgentId, agentClass := ⟨agentClass⟩, version,
    tenantId := ⟨tenantId⟩, issuedAtAsPresented, expiresAtAsPresented, publicKeyDer,
    kernelSignature, presentedParent, scopeBoundary, lineageHash, capabilitySet, trustDomain,
    kernelKeyThumbprint, unknownFields }

/-- Serializing what `de` read gives the value back exactly when `good` holds of it. -/
def Reproduces {α : Type} (de : JsonValue → Option α) (ser : α → Json String)
    (good : JsonValue → Prop) : Prop :=
  ∀ j a, de j = some a → (ser a = j.val ↔ good j)

theorem u8_reproduces : Reproduces u8 (fun b => .ofNat b.toNat) (fun _ => True) := by
  intro j b h
  refine ⟨fun _ => trivial, fun _ => ?_⟩
  unfold u8 at h
  split at h
  · rename_i n number
    split at h
    · rename_i range
      cases h
      have toNat : (UInt8.ofNat n.toNat).toNat = n.toNat :=
        UInt8.toNat_ofNat_of_lt' (by have := range.2; show n.toNat < 256; omega)
      simp only [number, toNat, Json.ofNat, Int.toNat_of_nonneg range.1]
    · cases h
  · cases h

theorem string_reproduces : Reproduces string .str (fun _ => True) := by
  intro j s h
  refine ⟨fun _ => trivial, fun _ => ?_⟩
  unfold string Json.asStr at h
  split at h
  · rename_i text
    cases h
    exact text.symm
  · cases h

theorem presentedUuid_reproduces :
    Reproduces presentedUuid (fun p => .str p.asPresented) (fun _ => True) := by
  intro j p h
  refine ⟨fun _ => trivial, fun _ => ?_⟩
  unfold presentedUuid at h
  split at h
  · cases h
  · rename_i raw read
    split at h
    · cases h
    · cases h
      exact (string_reproduces j raw read).mpr trivial

theorem option_reproduces {α : Type} {de : JsonValue → Option α} {ser : α → Json String}
    {good : JsonValue → Prop} (reproduces : Reproduces de ser good) {j : JsonValue} {a : Option α}
    (h : option de j = some a) (hgood : good j) : a.elim .null ser = j.val := by
  unfold option at h
  split at h
  · rename_i null
    cases h
    exact null.symm
  · obtain ⟨b, hb, rfl⟩ := Option.map_eq_some_iff.mp h
    exact (reproduces j b hb).mpr hgood

theorem vec_reproduces {α : Type} {item : JsonValue → Option α} {ser : α → Json String}
    {good : JsonValue → Prop} (reproduces : Reproduces item ser good) :
    Reproduces (vec item) (fun xs => .arr (xs.map ser))
      (fun j => ∀ items, j.items? = some items → ∀ i ∈ items, good i) := by
  intro j xs h
  obtain ⟨items, read, parsed⟩ := Option.bind_eq_some_iff.mp h
  have lists : ∀ (items : List JsonValue) (xs : List α), items.mapM item = some xs →
      (xs.map ser = items.map JsonValue.val ↔ ∀ i ∈ items, good i) := by
    intro items
    induction items with
    | nil => intro xs hx; cases hx; simp
    | cons i items ih =>
      intro xs hx
      simp only [List.mapM_cons, Option.pure_def, Option.bind_eq_bind, Option.bind_eq_some_iff,
        Option.some.injEq] at hx
      obtain ⟨a, ha, rest, hrest, rfl⟩ := hx
      simp [reproduces i a ha, ih rest hrest]
  simpa [JsonValue.items?_eq_some read, read] using lists items xs parsed

/-- Both wire forms of an entry come out as an object, so only the object form
comes back as it was. -/
theorem scopeBoundaryEntry_reproduces :
    Reproduces scopeBoundaryEntry ScopeBoundaryEntry.toJson (fun j => j.items? = none) := by
  intro j e h
  obtain ⟨⟨kind, value⟩, raw, built⟩ := Option.bind_eq_some_iff.mp h
  have fields : e.kind = kind ∧ e.value = value := by
    simp only [ScopeBoundaryEntry.new] at built
    split at built
    · cases built; exact ⟨rfl, rfl⟩
    · cases built
  have form : e.toJson = .obj [("kind", .str kind), ("value", value.val)] := by
    rw [ScopeBoundaryEntry.toJson_eq, fields.1, fields.2]
  unfold rawEntry at raw
  split at raw
  · rename_i items
    simp [form, JsonValue.items?_eq_some items, items]
  · cases raw
  · rename_i noItems
    simp only [Option.bind_eq_bind, Option.bind_eq_some_iff] at raw
    obtain ⟨members, isObject, raw⟩ := raw
    split at raw
    · rename_i only
      simp only [Option.bind_eq_some_iff, Option.some.injEq] at raw
      obtain ⟨_, ⟨_, hkind, text⟩, _, hvalue, same⟩ := raw
      cases same
      simp only [noItems, iff_true]
      have obj := JsonValue.members?_eq_some isObject
      have sorted : SortedMap.Sorted members := by
        have := j.property
        simp only [obj, Json.ordered, Bool.and_eq_true, decide_eq_true_eq] at this
        exact this.1
      have kindMember : members.lookup "kind" = some (.str kind) := by
        have := JsonValue.member?_eq_some hkind
        rw [obj] at this
        exact this.trans (congrArg some ((string_reproduces _ _ text).mpr trivial).symm)
      have valueMember : members.lookup "value" = some value.val := by
        have := JsonValue.member?_eq_some hvalue
        rwa [obj] at this
      have below : "kind" < "value" := by decide
      have sorted' : SortedMap.Sorted [("kind", Json.str kind), ("value", value.val)] :=
        List.pairwise_pair.mpr below
      rw [form, obj]
      refine congrArg _ (SortedMap.ext sorted' sorted (fun k => ?_))
      by_cases atKind : k = "kind"
      · simp [atKind, kindMember]
      · by_cases atValue : k = "value"
        · simp [atValue, valueMember, List.lookup_cons]
        · rw [SortedMap.lookup_cons_ne _ _ atKind, SortedMap.lookup_cons_ne _ _ atValue]
          refine (List.lookup_eq_none_iff.mpr (fun m hm => ?_)).symm
          have := List.all_eq_true.mp only m hm
          rcases Bool.or_eq_true_iff.mp this with h | h
          · rw [eq_of_beq h]; simpa using atKind
          · rw [eq_of_beq h]; simpa using atValue
    · cases raw

structure Reads (j : JsonValue) (v : Vaid) : Prop where
  unknown : unknownFields j = some v.unknownFields
  sigVersion : fieldOr j "sig_version" 0 u8 = some v.sigVersion
  vaidId : field j "vaid_id" presentedUuid = some v.presentedVaidId
  agentId : field j "agent_id" presentedUuid = some v.presentedAgentId
  agentClass : field j "agent_class" string = some v.agentClass.asStr
  version : field j "version" string = some v.version
  tenantId : field j "tenant_id" string = some v.tenantId.asStr
  issuedAt : field j "issued_at" string = some v.issuedAtAsPresented
  expiresAt : field j "expires_at" string = some v.expiresAtAsPresented
  publicKeyDer : field j "public_key_der" (vec u8) = some v.publicKeyDer
  kernelSignature : field j "kernel_signature" (vec u8) = some v.kernelSignature
  parent : fieldOr j "parent_vaid" none (fun m => (option presentedUuid m).map some) =
    some v.presentedParent
  scope : field j "scope_boundary" (vec scopeBoundaryEntry) = some v.scopeBoundary
  lineageHash : field j "lineage_hash" string = some v.lineageHash
  capabilitySet : field j "capability_set" (vec string) = some v.capabilitySet
  trustDomain : field j "trust_domain" string = some v.trustDomain
  kernelKeyThumbprint : field j "kernel_key_thumbprint" string = some v.kernelKeyThumbprint

theorem reads_of_vaid {j : JsonValue} {v : Vaid} (h : vaid j = some v) : Reads j v := by
  unfold vaid at h
  obtain ⟨_, h₁, h⟩ := Option.bind_eq_some_iff.mp h
  obtain ⟨_, h₂, h⟩ := Option.bind_eq_some_iff.mp h
  obtain ⟨_, h₃, h⟩ := Option.bind_eq_some_iff.mp h
  obtain ⟨_, h₄, h⟩ := Option.bind_eq_some_iff.mp h
  obtain ⟨_, h₅, h⟩ := Option.bind_eq_some_iff.mp h
  obtain ⟨_, h₆, h⟩ := Option.bind_eq_some_iff.mp h
  obtain ⟨_, h₇, h⟩ := Option.bind_eq_some_iff.mp h
  obtain ⟨_, h₈, h⟩ := Option.bind_eq_some_iff.mp h
  obtain ⟨_, h₉, h⟩ := Option.bind_eq_some_iff.mp h
  obtain ⟨_, h₁₀, h⟩ := Option.bind_eq_some_iff.mp h
  obtain ⟨_, h₁₁, h⟩ := Option.bind_eq_some_iff.mp h
  obtain ⟨_, h₁₂, h⟩ := Option.bind_eq_some_iff.mp h
  obtain ⟨_, h₁₃, h⟩ := Option.bind_eq_some_iff.mp h
  obtain ⟨_, h₁₄, h⟩ := Option.bind_eq_some_iff.mp h
  obtain ⟨_, h₁₅, h⟩ := Option.bind_eq_some_iff.mp h
  obtain ⟨_, h₁₆, h⟩ := Option.bind_eq_some_iff.mp h
  obtain ⟨_, h₁₇, h⟩ := Option.bind_eq_some_iff.mp h
  cases h
  exact ⟨h₁, h₂, h₃, h₄, h₅, h₆, h₇, h₈, h₉, h₁₀, h₁₁, h₁₂, h₁₃, h₁₄, h₁₅, h₁₆, h₁₇⟩

theorem get_of_field {α : Type} {de : JsonValue → Option α} {ser : α → Json String}
    {good : JsonValue → Prop} (reproduces : Reproduces de ser good) {j : JsonValue} {name : String}
    {a : α} (h : field j name de = some a) (hgood : ∀ m, j.member? name = some m → good m) :
    j.val.get name = some (ser a) := by
  obtain ⟨m, found, read⟩ := Option.bind_eq_some_iff.mp h
  rw [JsonValue.member?_eq_some found, (reproduces m a read).mpr (hgood m found)]

theorem get_of_field_always {α : Type} {de : JsonValue → Option α} {ser : α → Json String}
    (reproduces : Reproduces de ser (fun _ => True)) {j : JsonValue} {name : String} {a : α}
    (h : field j name de = some a) : j.val.get name = some (ser a) :=
  get_of_field reproduces h (fun _ _ => trivial)

def HasPositionalEntry (j : JsonValue) : Prop :=
  ∃ boundary items, j.member? "scope_boundary" = some boundary ∧ boundary.items? = some items ∧
    ∃ entry ∈ items, entry.items? ≠ none

theorem get_of_sigVersion {j : JsonValue} {v : Vaid} (reads : Reads j v)
    (present : j.member? "sig_version" ≠ none) :
    j.val.get "sig_version" = some (.ofNat v.sigVersion.toNat) := by
  have read := reads.sigVersion
  unfold fieldOr at read
  split at read
  · rename_i absent
    exact absurd absent present
  · rename_i member found
    exact get_of_field_always u8_reproduces (by rw [field, found]; exact read)

theorem get_of_parent {j : JsonValue} {v : Vaid} (reads : Reads j v) {p : Option PresentedUuid}
    (given : v.presentedParent = some p) :
    j.val.get "parent_vaid" = some (p.elim .null (fun p => .str p.asPresented)) := by
  have read := reads.parent
  rw [given] at read
  unfold fieldOr at read
  split at read
  · cases read
  · rename_i member found
    simp only [Option.map_eq_some_iff, Option.some.injEq] at read
    obtain ⟨_, read, rfl⟩ := read
    rw [JsonValue.member?_eq_some found]
    exact congrArg some (option_reproduces presentedUuid_reproduces read trivial).symm

theorem get_of_scope {j : JsonValue} {v : Vaid} (reads : Reads j v)
    (objects : ¬ HasPositionalEntry j) :
    j.val.get "scope_boundary" = some (.arr (v.scopeBoundary.map (·.toJson))) := by
  refine get_of_field (vec_reproduces scopeBoundaryEntry_reproduces) reads.scope ?_
  intro m found items hitems i hi
  by_contra positional
  exact objects ⟨m, items, found, hitems, i, hi, positional⟩

theorem get_of_namedMember {j : JsonValue} {v : Vaid} (reads : Reads j v)
    (present : j.member? "sig_version" ≠ none) (objects : ¬ HasPositionalEntry j) :
    ∀ m ∈ v.namedMembers, j.val.get m.1 = some m.2 := by
  have text {name s} (h : field j name string = some s) := get_of_field_always string_reproduces h
  have uuid {name p} (h : field j name presentedUuid = some p) :=
    get_of_field_always presentedUuid_reproduces h
  have bytes {name b} (h : field j name (vec u8) = some b) :=
    get_of_field (vec_reproduces u8_reproduces) h (fun _ _ _ _ _ _ => trivial)
  have texts {name ss} (h : field j name (vec string) = some ss) :=
    get_of_field (vec_reproduces string_reproduces) h (fun _ _ _ _ _ _ => trivial)
  unfold Vaid.namedMembers
  simp only [List.forall_mem_append, List.forall_mem_cons, List.not_mem_nil, false_implies,
    implies_true, and_true]
  refine ⟨⟨⟨get_of_sigVersion reads present, uuid reads.vaidId, uuid reads.agentId,
    text reads.agentClass, text reads.version, text reads.tenantId, text reads.issuedAt, text reads.expiresAt,
    bytes reads.publicKeyDer, bytes reads.kernelSignature⟩, ?_⟩, get_of_scope reads objects,
    text reads.lineageHash, texts reads.capabilitySet, text reads.trustDomain,
    text reads.kernelKeyThumbprint⟩
  cases hp : v.presentedParent with
  | none => simp
  | some p => cases p <;> simpa using get_of_parent reads hp

theorem get_of_unknown {j : JsonValue} {unknown : UnknownFields} (h : unknownFields j = some unknown)
    {k : String} (unnamed : k ∉ vaidMemberNames) : unknown.members.lookup k = j.val.get k := by
  obtain ⟨j, ordered⟩ := j
  cases j with
  | obj members =>
    cases h
    show (members.filter _).lookup k = members.lookup k
    induction members with
    | nil => rfl
    | cons m members ih =>
      simp only [Json.ordered, Bool.and_eq_true, decide_eq_true_eq, Json.orderedMembers] at ordered
      have ih := ih (by
        simp only [Json.ordered, Bool.and_eq_true, decide_eq_true_eq]
        exact ⟨(List.pairwise_cons.mp ordered.1).2, ordered.2.2⟩)
      obtain ⟨k', v⟩ := m
      rw [List.filter_cons]
      by_cases same : k = k'
      · subst same
        simp [unnamed]
      · rw [SortedMap.lookup_cons_ne _ _ same]
        split
        · rw [SortedMap.lookup_cons_ne _ _ same, ih]
        · exact ih
  | _ => cases h

theorem toJson_of_objects {j : JsonValue} {v : Vaid} (accepted : vaid j = some v)
    (present : j.member? "sig_version" ≠ none) (objects : ¬ HasPositionalEntry j) :
    v.toJson = j.val := by
  have reads := reads_of_vaid accepted
  have named := get_of_namedMember reads present objects
  obtain ⟨j, ordered⟩ := j
  cases j with
  | obj members =>
    simp only [Json.ordered, Bool.and_eq_true, decide_eq_true_eq] at ordered
    refine congrArg _ (SortedMap.ext (SortedMap.ofList_sorted _) ordered.1 (fun k => ?_))
    rw [SortedMap.lookup_ofList _ v.members_nodup, List.lookup_append]
    cases hk : v.namedMembers.lookup k with
    | some x => exact (named (k, x) (SortedMap.mem_of_lookup hk)).symm
    | none =>
      rw [Option.none_or]
      have absent : k ∉ v.namedMembers.map Prod.fst := by
        intro hmem
        obtain ⟨m, hm, rfl⟩ := List.mem_map.mp hmem
        simpa using List.lookup_eq_none_iff.mp hk m hm
      by_cases hname : k ∈ vaidMemberNames
      · -- the one named member a document may lack is `parent_vaid`
        rw [Vaid.namedMembers_keys] at absent
        split at absent
        · rename_i noParent
          have hparent : k = "parent_vaid" := by
            by_contra other
            exact absent ((List.mem_erase_of_ne other).mpr hname)
          subst hparent
          have unnamed : v.unknownFields.members.lookup "parent_vaid" = none :=
            List.lookup_eq_none_iff.mpr (fun m hm =>
              bne_iff_ne.mpr
                (fun h : "parent_vaid" = m.1 => v.unknownFields.unnamed m hm (h ▸ hname)))
          rw [unnamed]
          have h := reads.parent
          rw [noParent] at h
          unfold fieldOr at h
          split at h
          · rename_i missing
            exact (JsonValue.member?_eq_none missing).symm
          · simp at h
        · exact absurd hname absent
      · exact get_of_unknown reads.unknown hname
  | _ =>
    have := reads.unknown
    cases this

theorem toJson_ne_of_positional {j : JsonValue} {v : Vaid} (accepted : vaid j = some v)
    (positional : HasPositionalEntry j) : v.toJson ≠ j.val := by
  intro same
  obtain ⟨boundary, items, found, hitems, entry, hentry, array⟩ := positional
  have written : j.val.get "scope_boundary" =
      some (.arr (v.scopeBoundary.map (·.toJson))) := by
    have member : ("scope_boundary", Json.arr (v.scopeBoundary.map (·.toJson))) ∈
        v.namedMembers := by simp [Vaid.namedMembers]
    rw [← same]
    exact v.toJson_get_named member
  have read : field j "scope_boundary" (vec scopeBoundaryEntry) = some v.scopeBoundary :=
    (reads_of_vaid accepted).scope
  rw [field, found] at read
  rw [JsonValue.member?_eq_some found] at written
  exact array ((vec_reproduces scopeBoundaryEntry_reproduces boundary _ read).mp
    (Option.some.inj written).symm items hitems entry hentry)

/-- For an accepted value with `sig_version` present, serializing the parsed
document gives the value back, and the signature covers the value with only
`kernel_signature` nulled, exactly when no entry of its boundary is written by
position. -/
theorem vaid_faithful_iff [Crypto] (j : JsonValue) (v : Vaid) (accepted : vaid j = some v)
    (present : j.member? "sig_version" ≠ none) :
    (v.toJson = j.val ∧
        canonicalVaidSigningBytes v = canonicalSigningBytes "kernel_signature" j.val) ↔
      ¬ HasPositionalEntry j := by
  constructor
  · exact fun same positional => toJson_ne_of_positional accepted positional same.1
  · intro objects
    have same := toJson_of_objects accepted present objects
    exact ⟨same, congrArg (canonicalSigningBytes _) same⟩

/-- A presented document whose boundary has the one entry `entry`. -/
def documentWithEntry (entry : Json String) : Json String :=
  .obj [("agent_class", .str "researcher"),
    ("agent_id", .str "00000000-0000-4000-8000-000000000001"),
    ("capability_set", .arr [.str "read"]),
    ("expires_at", .str "2030-01-01T01:00:00Z"),
    ("issued_at", .str "2030-01-01T00:00:00Z"),
    ("kernel_key_thumbprint", .str "urn:ietf:params:oauth:jwk-thumbprint:sha-256:AA"),
    ("kernel_signature", .arr [.ofNat 1, .ofNat 2]),
    ("lineage_hash", .str "00"),
    ("parent_vaid", .null),
    ("public_key_der", .arr [.ofNat 3]),
    ("scope_boundary", .arr [entry]),
    ("sig_version", .ofNat 4),
    ("tenant_id", .str "acme"),
    ("trust_domain", .str "vaid.example"),
    ("vaid_id", .str "00000000-0000-4000-8000-000000000001"),
    ("version", .str "1.0.0")]

def objectDocument : JsonValue :=
  ⟨documentWithEntry (.obj [("kind", .str "prefix"), ("value", .str "orders/")]), by decide⟩

def positionalDocument : JsonValue :=
  ⟨documentWithEntry (.arr [.str "prefix", .str "orders/"]), by decide⟩

theorem positionalDocument_hasPositionalEntry : HasPositionalEntry positionalDocument :=
  ⟨⟨.arr [.arr [.str "prefix", .str "orders/"]], by decide⟩,
    [⟨.arr [.str "prefix", .str "orders/"], by decide⟩], rfl, rfl, _, List.mem_singleton_self _,
    by simp [JsonValue.items?]⟩

theorem vaid_faithful_iff_objectDocument : ∃ v, vaid objectDocument = some v ∧
    ((v.toJson = objectDocument.val ∧
        @canonicalVaidSigningBytes .standIn v =
          @canonicalSigningBytes .standIn "kernel_signature" objectDocument.val) ↔
      ¬ HasPositionalEntry objectDocument) := by
  have accepted : (vaid objectDocument).isSome = true := by decide
  obtain ⟨v, hv⟩ := Option.isSome_iff_exists.mp accepted
  exact ⟨v, hv, @vaid_faithful_iff .standIn objectDocument v hv (by decide)⟩

theorem positionalDocument_not_reproduced : ∃ v, vaid positionalDocument = some v ∧
    positionalDocument.member? "sig_version" ≠ none ∧ v.toJson ≠ positionalDocument.val := by
  have accepted : (vaid positionalDocument).isSome = true := by decide
  obtain ⟨v, hv⟩ := Option.isSome_iff_exists.mp accepted
  exact ⟨v, hv, by decide, toJson_ne_of_positional hv positionalDocument_hasPositionalEntry⟩

end Deserialize

end VaidSuite
