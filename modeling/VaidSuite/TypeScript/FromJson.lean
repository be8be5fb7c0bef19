import VaidSuite.DuplicateNames
import VaidSuite.TypeScript.ChainSpec
import VaidSuite.TypeScript.Envelope

/-! The TypeScript mirror of reading a document from its text. -/
namespace VaidSuite.TypeScript

/-- What is skipped between a name and its colon: `\s`. -/
def regexSpace : DuplicateNames.Space where
  skips c := isWhiteSpace (Fin.ofNat 0x10000 c)
  json c h := by
    simp only [JsonText.isSpace, Bool.or_eq_true, beq_iff_eq] at h
    rcases h with ((rfl | rfl) | rfl) | rfl <;> decide
  stops := by decide

/-- Does the text name a member twice in one object? -/
def hasDuplicateMemberNames (json : JsStr) : Bool :=
  DuplicateNames.hasDuplicateMemberNames regexSpace (json.map Fin.val)

/-- The document that the text holds. Its other members are kept. -/
def parseVaidDocument (documentJson : JsStr) : Option Members :=
  if hasDuplicateMemberNames documentJson then none
  else match jsonParse documentJson with
    | some (.obj document) => if satisfiesContract document then some document else none
    | _ => none

theorem satisfiesContract_of_parsed {documentJson : JsStr} {document : Members}
    (accepted : parseVaidDocument documentJson = some document) :
    satisfiesContract document = true := by
  unfold parseVaidDocument at accepted
  split at accepted
  · cases accepted
  · split at accepted
    · split at accepted
      · rename_i holds
        cases accepted
        exact holds
      · cases accepted
    · cases accepted

theorem hasShape_of_contract {document : Members} (contract : satisfiesContract document = true) :
    hasShape document = true := by
  simp only [satisfiesContract, Bool.and_eq_true, List.all_eq_true] at contract
  obtain ⟨⟨required, -⟩, parent⟩ := contract
  have vaidId := required ("vaid_id", isUuid) (by simp [requiredMembers])
  obtain ⟨value, found, uuid⟩ := (Option.any_eq_true _ _).mp vaidId
  obtain ⟨text, isText, spelled⟩ := (Option.any_eq_true _ _).mp uuid
  have named : document.get "vaid_id" = value := by rw [Members.get, found, Option.getD_some]
  unfold hasShape
  rw [named]
  cases value with
  | str s =>
    cases isText
    cases text with
    | nil => exact absurd spelled (by decide)
    | cons c s =>
      dsimp only
      unfold parentIsUuid at parent
      cases given : document.get "parent_vaid" with
      | undefined | null | str => rfl
      | bool | num | arr | obj =>
        rw [given] at parent
        cases parent
  | _ => cases isText

end VaidSuite.TypeScript
