import VaidSuite.Python.JwtServiceSpec
import VaidSuite.TypeScript.VerifyCoreSpec

/-! Texts that name a member twice, at the two entry points that do not look for it. Each
decides by the document in which members of one name are one, with the last value. -/
namespace VaidSuite

open JsonText (Tree)

namespace Python.JwtBridge

/-- The member of an object that a lookup finds, among the members of its tree. -/
def memberOf (members : List (JsonText.Text × Tree)) (key : String) : Option Tree :=
  ((InsertionMap.ofList (fun m => stringOf m.1) members).lookup (py key)).map Prod.snd

/-- The leaf and the chain documents of a `subject_token`. -/
def subjectDocuments : Tree → List Tree
  | .obj members => (memberOf members "leaf").toList ++
    match memberOf members "chain" with
    | some (.arr items) => items
    | _ => []
  | _ => []

/-- Some document in the `subject_token` of the form has two members of one name. -/
def Repeats (form : Form) : Prop :=
  ∃ raw t, form.get "subject_token" = some raw ∧ readJson raw = some t ∧
    ∃ d ∈ subjectDocuments t, d.repeats stringOf = true

/-- The leaf and the chain when members of one name are one. -/
def mergedSubject (form : Form) : Option Dict × List Dict :=
  match (form.get "subject_token").bind readJson with
  | some t => subjectOf (ofTree (t.merged stringOf))
  | none => (none, [])

variable [Libraries]

omit [Libraries] in
theorem parseSubjectToken_eq {form : Form} {raw : PyStr}
    (presented : form.get "subject_token" = some raw) : parseSubjectToken raw = mergedSubject form := by
  rw [parseSubjectToken, mergedSubject, presented, jsonLoads, Option.bind_some]
  cases readJson raw with
  | none => rfl
  | some t => simp only [Option.map_some, ofTree_merged]

theorem issues_iff_redeems (config : BridgeConfig) (form : Form) (clock : UtcDatetime) :
    (∃ response, tokenExchange config form clock = .ok (.issued response)) ↔
      Redeems config form clock (mergedSubject form) := by
  rw [tokenExchange_issues_iff]
  constructor
  · rintro ⟨raw, presented, redeems⟩
    rwa [parseSubjectToken_eq presented] at redeems
  · intro redeems
    cases presented : form.get "subject_token" with
    | none =>
      obtain ⟨_, _, leaf, chain, _, _, merged, _⟩ := redeems
      rw [mergedSubject, presented] at merged
      cases merged
    | some raw =>
      rw [← parseSubjectToken_eq presented] at redeems
      exact ⟨raw, rfl, redeems⟩

end Python.JwtBridge

namespace TypeScript

/-- The member of an object that a lookup finds, among the members of its tree. -/
def memberOf (members : List (JsonText.Text × Tree)) (key : String) : Option Tree :=
  ((InsertionMap.ofList (fun m => stringOf m.1) members).lookup (js key)).map Prod.snd

/-- The JSON tree of an input, in any of its wire forms. -/
def envelopeTree (input : JsStr) : Option Tree := (envelopeJson input).toOption.bind readJson

def envelopeDocuments : Tree → List Tree
  | .obj members =>
    match memberOf members "v", memberOf members "vaid" with
    | none, none => [.obj members]
    | _, vaid => vaid.toList ++
      match memberOf members "chain" with
      | some (.arr items) => items
      | _ => []
  | _ => []

/-- Some document of the input has two members of one name. -/
def Repeats (input : JsStr) : Prop :=
  ∃ t, envelopeTree input = some t ∧ ∃ d ∈ envelopeDocuments t, d.repeats stringOf = true

variable [Runtime]

def mergedEnvelope (input : JsStr) : Option Parsed :=
  (envelopeTree input).bind (fun t => (normalise (ofTree (t.merged stringOf))).toOption)

theorem mergedEnvelope_eq (input : JsStr) : mergedEnvelope input = (parseEnvelope input).toOption := by
  have bound : ∀ x : EnvelopeResult JsStr, (x.toOption.bind readJson).bind
      (fun t => (normalise (ofTree (t.merged stringOf))).toOption) =
        (x >>= fun text => parseJson text >>= normalise).toOption := by
    intro x
    cases x with
    | error e => rfl
    | ok text =>
      simp only [Except.toOption, Option.bind_some, Raising.ok_bind, parseJson, jsonParse]
      cases readJson text with
      | none => rfl
      | some t => simp [ofTree_merged]
  exact bound (envelopeJson input)

def MergedUsable (input : JsStr) (anchor : Anchor) (now : Int) : Prop :=
  ∃ parsed entry line, mergedEnvelope input = some parsed ∧ Usable anchor parsed now entry line

theorem accepted_iff_mergedUsable (input : JsStr) (anchor : Anchor) (now : Int) :
    (∃ result, verifyEnvelope input anchor now = .ok result ∧ result.headline.Accepts) ↔
      MergedUsable input anchor now := by
  unfold verifyEnvelope MergedUsable
  rw [mergedEnvelope_eq]
  cases parseEnvelope input with
  | error message =>
    constructor
    · rintro ⟨result, returned, accepted⟩
      cases returned
      rcases accepted with h | h <;> cases h
    · rintro ⟨_, _, _, parsed, _⟩
      cases parsed
  | ok parsed =>
    constructor
    · rintro ⟨result, returned, accepted⟩
      obtain ⟨entry, line, usable⟩ := usable_of_accepted returned accepted
      exact ⟨parsed, entry, line, rfl, usable⟩
    · rintro ⟨_, _, _, same, usable⟩
      cases same
      exact usable.accepted

end TypeScript

/-- A text with a repeated member gets no token, and no headline that accepts, exactly when
what is left of it with members of one name made one is refused for another reason. -/
theorem repetition_refused_iff [Python.Libraries] [TypeScript.Runtime] :
    (∀ (config : Python.JwtBridge.BridgeConfig) (form : Python.JwtBridge.Form)
        (clock : Python.UtcDatetime),
      (Python.JwtBridge.Repeats form →
          ∀ response, Python.JwtBridge.tokenExchange config form clock ≠ .ok (.issued response)) ↔
        (Python.JwtBridge.Repeats form →
          ¬ Python.JwtBridge.Redeems config form clock (Python.JwtBridge.mergedSubject form))) ∧
    (∀ (input : TypeScript.JsStr) (anchor : TypeScript.Anchor) (now : Int),
      (TypeScript.Repeats input → ∀ result,
          TypeScript.verifyEnvelope input anchor now = .ok result → ¬ result.headline.Accepts) ↔
        (TypeScript.Repeats input → ¬ TypeScript.MergedUsable input anchor now)) ∧
    ∀ t : Tree, (t.merged Python.stringOf).repeats Python.stringOf = false ∧
      (t.merged TypeScript.stringOf).repeats TypeScript.stringOf = false := by
  refine ⟨fun config form clock => ?_, fun input anchor now => ?_, fun t =>
    ⟨JsonText.repeats_merged _ t, JsonText.repeats_merged _ t⟩⟩
  · rw [← Python.JwtBridge.issues_iff_redeems, not_exists]
  · rw [← TypeScript.accepted_iff_mergedUsable]
    refine imp_congr_right (fun _ => ⟨fun refused => ?_, fun refused result returned accepted => ?_⟩)
    · rintro ⟨result, returned, accepted⟩
      exact refused result returned accepted
    · exact refused ⟨result, returned, accepted⟩

namespace TypeScript

section Example

local instance : Runtime := Runtime.toy

/-- A root document whose trust domain is given twice. -/
def twiceNamed : JsStr := js "\x7b" ++ js "\"trust_domain\":" ++ quoted [] ++ js "," ++
  (documentText rootId (js "null") "2030-01-01T00:00:00Z" (js "[]")).tail

/-- The headline calls it valid. -/
theorem twiceNamed_accepted : Repeats twiceNamed ∧
    headlineOn twiceNamed 1893400000000 = some .valid := by
  have repeats : ((envelopeTree twiceNamed).map (fun t =>
      (envelopeDocuments t).any (fun d => d.repeats stringOf))) = some true := by
    decide +kernel
  obtain ⟨t, tree, found⟩ := Option.map_eq_some_iff.mp repeats
  exact ⟨⟨t, tree, by simpa using found⟩, by decide +kernel⟩

end Example

end TypeScript

end VaidSuite
