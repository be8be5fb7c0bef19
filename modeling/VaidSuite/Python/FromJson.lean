import VaidSuite.Python.Loads
import VaidSuite.Python.Verify

/-! The Python mirror of reading a document from its text. -/
namespace VaidSuite.Python

variable [Libraries]

/-- The document that the text holds. Its other members are kept. A name that an object gives
twice is refused at every depth. -/
def parseVaidDocument (documentJson : PyStr) : Option Dict :=
  match ((readJson documentJson).filter (fun tree => !tree.repeats stringOf)).map ofTree with
  | some (.obj document) => if satisfiesContract document then some document else none
  | _ => none

theorem of_parseVaidDocument {documentJson : PyStr} {document : Dict}
    (accepted : parseVaidDocument documentJson = some document) :
    satisfiesContract document = true ∧ ∃ tree,
      JsonText.read (documentJson.map Fin.val) = some tree ∧ tree.repeats stringOf = false ∧
        ofTree tree = .obj document := by
  unfold parseVaidDocument at accepted
  split at accepted
  · rename_i read
    split_ifs at accepted with contract
    cases accepted
    obtain ⟨tree, kept, value⟩ := Option.map_eq_some_iff.mp read
    obtain ⟨loaded, unrepeated⟩ := Option.filter_eq_some_iff.mp kept
    exact ⟨contract, tree, (Option.filter_eq_some_iff.mp loaded).1, by simpa using unrepeated, value⟩
  · cases accepted

end VaidSuite.Python
