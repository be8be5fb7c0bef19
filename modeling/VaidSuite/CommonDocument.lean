import VaidSuite.AuthenticityAlike
import VaidSuite.Python.FromJson
import VaidSuite.WholeSeconds

/-! A document that all three hosts accept, written in the one profile that they share. -/
namespace VaidSuite

open JsonText (Text Tree codes respell utf16Code)
open Python (py)
open TypeScript (js utf16)

theorem points_py (s : String) : (py s).map Fin.val = codes s := by
  rw [py, codes, List.map_map]
  refine List.map_congr_left (fun c _ => Nat.mod_eq_of_lt ?_)
  rcases c.valid with low | high
  · exact low.trans (by decide)
  · exact high.2

theorem units_js (s : String) : (js s).map Fin.val = respell utf16Code (codes s) := by
  have units : ∀ c : Char, (utf16 c).map Fin.val = utf16Code c.toNat := by
    intro c
    have valid : c.toNat < 0xd800 ∨ 0xdfff < c.toNat ∧ c.toNat < 0x110000 := c.valid
    unfold utf16 utf16Code
    split_ifs with basic
    · rw [List.map_singleton, Fin.val_ofNat, Nat.mod_eq_of_lt basic]
    · rw [List.map_cons, List.map_singleton, Fin.val_ofNat, Fin.val_ofNat,
        Nat.mod_eq_of_lt (by omega), Nat.mod_eq_of_lt (by omega)]
  rw [js, codes, respell, List.map_flatMap, List.flatMap_map]
  exact List.flatMap_congr (fun c _ => units c)

section Documents

variable [SerdeJson] [Python.Libraries]

/-- A text that all three hosts read as a document. Its ids are spelled as the mint spells them
and its parent is given, its expiry is a whole second in UTC, its boundary has prefixes alone, and
it has no member that no field names. -/
structure CommonDocument where
  text : String
  vaid : Vaid
  dict : Python.Dict
  members : TypeScript.Members
  rust : SerdeJson.fromStr text = some vaid
  python : Python.parseVaidDocument (py text) = some dict
  typescript : TypeScript.parseVaidDocument (js text) = some members
  ids : PlainIds vaid
  given : ∃ parent, vaid.presentedParent = some parent
  expiry : ∃ stamp, Expiry.IsWholeSecond vaid.expiresAtAsPresented stamp
  prefixes : ∀ e ∈ vaid.scopeBoundary, e.kind = scopeKindPrefix
  known : vaid.unknownFields.members = []

namespace CommonDocument

variable (d : CommonDocument)

theorem spells : ∃ tree j, JsonText.read (codes d.text) = some tree ∧
    tree.repeats Python.stringOf = false ∧ SerdeJson.depth tree < SerdeJson.recursionLimit ∧
      SerdeJson.value tree = some j ∧ HeldAlike d.vaid d.dict d.members j := by
  obtain ⟨tree, read, accepted⟩ := Option.bind_eq_some_iff.mp d.rust
  have taken := JsonText.taken_of_read read
  obtain ⟨shallow, j, value, deserialized⟩ : SerdeJson.depth tree < SerdeJson.recursionLimit ∧
      ∃ j, SerdeJson.value tree = some j ∧ Deserialize.vaid j = some d.vaid := by
    unfold SerdeJson.lastWins at accepted
    split_ifs at accepted with named shallow
    exact ⟨shallow, Option.bind_eq_some_iff.mp accepted⟩
  obtain ⟨-, pyTree, pyRead, unrepeated, pyValue⟩ := Python.of_parseVaidDocument d.python
  rw [points_py, read] at pyRead
  cases pyRead
  have bytes := bytesOnly_of_vaid deserialized d.known d.prefixes
  obtain ⟨inPython, inTypeScript⟩ := bothRead_of_value tree j taken unrepeated value bytes
  have jsValue : TypeScript.ofTree (tree.respelled utf16Code) = .obj d.members := by
    have parsed := d.typescript
    unfold TypeScript.parseVaidDocument at parsed
    split_ifs at parsed
    split at parsed
    · rename_i document object
      split_ifs at parsed
      cases parsed
      obtain ⟨jsTree, kept, same⟩ := Option.map_eq_some_iff.mp object
      have jsRead := (Option.filter_eq_some_iff.mp kept).1
      rw [units_js, JsonText.utf16Code_respelling.read_eq, read] at jsRead
      cases jsRead
      exact same
    · cases parsed
  rw [pyValue] at inPython
  rw [jsValue] at inTypeScript
  exact ⟨tree, j, read, unrepeated, shallow, value, deserialized, Python.jsonOf_obj_iff.mp inPython,
    TypeScript.jsonOf_obj_iff.mp inTypeScript⟩

theorem heldAlike : ∃ j, HeldAlike d.vaid d.dict d.members j := by
  obtain ⟨_, j, -, -, -, -, held⟩ := d.spells
  exact ⟨j, held⟩

def presentedPython : Python.Presented := ⟨d.dict, (Python.of_parseVaidDocument d.python).1⟩

/-- The document as TypeScript presents it. -/
def presentedTypeScript : TypeScript.Presented :=
  ⟨d.members, TypeScript.satisfiesContract_of_parsed d.typescript⟩

end CommonDocument

end Documents

end VaidSuite
