import VaidSuite.Identity
import VaidSuite.Lib.Containment

/-! Typed scope-boundary entries, and the one scope matcher and the one
capability matcher that minting and verification share. -/
namespace VaidSuite

def scopeSeparators : List Char := ['/', '.']

def scopeKindPrefix : String := "prefix"

def validateScopeEntry (kind : String) (value : Json String) : Except String Unit :=
  if kind.isEmpty then .error "scope_boundary entry `kind` must be a non-empty string"
  else if kind = scopeKindPrefix ∧ value.asStr = none then
    .error "scope_boundary entry of kind `prefix` must carry a string `value`"
  else .ok ()

/-- One typed entry. Neither constructor of the source builds one that its
validation refuses. -/
structure ScopeBoundaryEntry where
  kind : String
  value : JsonValue
  validated : validateScopeEntry kind value.val = .ok ()

namespace ScopeBoundaryEntry

def new (kind : String) (value : JsonValue) : Except String ScopeBoundaryEntry :=
  match h : validateScopeEntry kind value.val with
  | .ok () => .ok ⟨kind, value, h⟩
  | .error e => .error e

/-- An entry of the one kind this version defines. -/
def ofPrefix (value : String) : ScopeBoundaryEntry :=
  ⟨scopeKindPrefix, ⟨.str value, rfl⟩, rfl⟩

def toJson (e : ScopeBoundaryEntry) : Json String :=
  .object [("kind", .str e.kind), ("value", e.value.val)]

theorem toJson_eq (e : ScopeBoundaryEntry) :
    e.toJson = .obj [("kind", .str e.kind), ("value", e.value.val)] := by
  have above : ¬ "value" < "kind" := by decide
  have distinct : ¬ "value" = "kind" := by decide
  simp only [toJson, Json.object, SortedMap.ofList, List.foldl, SortedMap.insert, if_neg above,
    if_neg distinct]

end ScopeBoundaryEntry

def prefixContains (pfx resource : String) : Bool :=
  if pfx.isEmpty then true
  else if resource = pfx then true
  else if scopeSeparators.any (fun sep => [sep].isSuffixOf pfx.toList) then
    pfx.toList.isPrefixOf resource.toList
  else scopeSeparators.any (fun sep => (pfx.toList ++ [sep]).isPrefixOf resource.toList)

/-- Evaluate one entry. `none` is an entry this implementation cannot read. -/
def entryContains (entry : ScopeBoundaryEntry) (resource : String) : Option Bool :=
  if entry.kind = scopeKindPrefix then
    entry.value.val.asStr.map (fun p => prefixContains p resource)
  else none

def entryClaimedResource (entry : ScopeBoundaryEntry) : Option String :=
  if entry.kind = scopeKindPrefix then entry.value.val.asStr else none

def entryIsEvaluable (entry : ScopeBoundaryEntry) : Bool := (entryContains entry "").isSome

def boundaryIsEvaluable (boundary : List ScopeBoundaryEntry) : Bool :=
  boundary.all entryIsEvaluable

/-- The loop of `scopeContains`. An unreadable entry refuses the whole boundary,
even with a match already in hand. -/
def scopeContainsLoop (resource : String) : List ScopeBoundaryEntry → Bool → Option Bool
  | [], contained => some contained
  | entry :: boundary, contained =>
    match entryContains entry resource with
    | none => none
    | some true => scopeContainsLoop resource boundary true
    | some false => scopeContainsLoop resource boundary contained

/-- The scope matcher. An empty boundary is unrestricted. -/
def scopeContains (boundary : List ScopeBoundaryEntry) (resource : String) : Bool :=
  match scopeContainsLoop resource boundary false with
  | none => false
  | some contained => boundary.isEmpty || contained

def capsContain (capabilities : List String) (capability : String) : Bool :=
  capabilities.any (fun c => c == capability)

/-- The prefix values of a boundary, when every entry can be read. -/
def claimedResources (boundary : List ScopeBoundaryEntry) : Option (List String) :=
  boundary.mapM entryClaimedResource

theorem prefixContains_eq (pfx resource : String) : prefixContains pfx resource =
    Containment.segmentPrefix (scopeSeparators.map ([·])) pfx.toList resource.toList := by
  have empty : (pfx.isEmpty = true) = (pfx.toList = []) := by
    simp [String.isEmpty_iff]
  have same : (resource = pfx) = (resource.toList = pfx.toList) :=
    propext String.ext_iff
  simp only [prefixContains, Containment.segmentPrefix, empty, same, List.any_map]
  rfl

theorem prefixContains_trans (a b c : String) (hab : prefixContains a b = true)
    (hbc : prefixContains b c = true) : prefixContains a c = true := by
  rw [prefixContains_eq] at hab hbc ⊢
  exact Containment.segmentPrefix_trans hab hbc

theorem entryContains_eq (entry : ScopeBoundaryEntry) (resource : String) :
    entryContains entry resource =
      (entryClaimedResource entry).map (fun p => prefixContains p resource) := by
  unfold entryContains entryClaimedResource
  split <;> rfl

theorem entryIsEvaluable_eq (entry : ScopeBoundaryEntry) :
    entryIsEvaluable entry = (entryClaimedResource entry).isSome := by
  simp [entryIsEvaluable, entryContains_eq]

theorem boundaryIsEvaluable_eq (boundary : List ScopeBoundaryEntry) :
    boundaryIsEvaluable boundary = (claimedResources boundary).isSome := by
  have reads : entryIsEvaluable = fun e => (entryClaimedResource e).isSome :=
    funext entryIsEvaluable_eq
  rw [boundaryIsEvaluable, reads]
  exact (Containment.regions_isSome boundary).symm

theorem scopeContainsLoop_eq (resource : String) (boundary : List ScopeBoundaryEntry)
    (contained : Bool) : scopeContainsLoop resource boundary contained =
      (claimedResources boundary).map
        (fun ps => contained || ps.any (fun p => prefixContains p resource)) := by
  have scans : scopeContainsLoop resource boundary contained =
      Containment.scan (fun e => entryContains e resource) boundary contained := by
    induction boundary generalizing contained with
    | nil => rfl
    | cons entry boundary ih =>
      simp only [scopeContainsLoop, Containment.scan]
      rcases entryContains entry resource with _ | _ | _
      · rfl
      · simp [ih]
      · simp [ih]
  rw [scans]
  exact Containment.scan_eq (fun e => entryContains_eq e resource) boundary contained

/-- The matcher is union containment over the prefix values, and refuses a
boundary it cannot read. -/
theorem scopeContains_eq (boundary : List ScopeBoundaryEntry) (resource : String) :
    scopeContains boundary resource = match claimedResources boundary with
      | none => false
      | some ps => Containment.within prefixContains ps resource := by
  rw [scopeContains, scopeContainsLoop_eq]
  cases h : claimedResources boundary with
  | none => rfl
  | some ps => simp [Containment.within, Containment.regions_isEmpty h]

end VaidSuite
