import VaidSuite.HostReadings
import VaidSuite.UuidSpellings
import VaidSuite.Python.Verify
import VaidSuite.TypeScript.Verify

/-! Which values are documents: the structural contract, over the JSON value that the hosts read,
and the gate of each host against it. -/
namespace VaidSuite

namespace Contract

def isByte : Json String → Bool
  | .num (.int n) => decide (0 ≤ n ∧ n < 256)
  | _ => false

def isText (j : Json String) : Bool := j.asStr.isSome

def isListOf (isItem : Json String → Bool) : Json String → Bool
  | .arr items => items.all isItem
  | _ => false

def isUuid (j : Json String) : Bool := j.asStr.any (fun s => (Uuid.parseStr s).isSome)

/-- The kind is not empty, and what a prefix names is text. -/
def isEntryOf (value : Json String) (kind : String) : Bool :=
  !kind.isEmpty && (kind != scopeKindPrefix || isText value)

def isEntry : Json String → Bool
  | .obj entry =>
    entry.all (fun m => m.1 == "kind" || m.1 == "value") &&
      ((Json.obj entry).get "value").any (fun value =>
        (((Json.obj entry).get "kind").bind Json.asStr).any (isEntryOf value))
  | _ => false

def isParent : Json String → Bool
  | .null => true
  | j => isUuid j

def required : List (String × (Json String → Bool)) :=
  [("vaid_id", isUuid), ("agent_id", isUuid), ("agent_class", isText), ("version", isText),
    ("tenant_id", isText), ("issued_at", isText), ("expires_at", isText),
    ("public_key_der", isListOf isByte), ("kernel_signature", isListOf isByte),
    ("scope_boundary", isListOf isEntry), ("lineage_hash", isText), ("capability_set", isListOf isText),
    ("trust_domain", isText), ("kernel_key_thumbprint", isText)]

/-- The version and the parent may be absent. -/
def holds (j : Json String) : Bool :=
  required.all (fun m => (j.get m.1).any m.2) && (j.get "sig_version").all isByte &&
    (j.get "parent_vaid").all isParent

end Contract

open Contract
open Python (PyValue py)
open TypeScript (JsValue js)

namespace Deserialize

end Deserialize

section Host

variable {σ ν : Type} [BEq σ] [LawfulBEq σ] {spell : String → σ} {jsonOf : ν → Option (Json String)}
variable {asStr : ν → Option σ} {isBlank : σ → Bool} {held : List (σ × ν)} {j : Json String}

end Host

/-- An id that all hosts read, and read alike, or that none reads. -/
inductive PlainId [Python.Libraries] : String → Prop where
  | hyphenated (u : Uuid) : PlainId u.toString
  | unread {s : String} : Uuid.parseStr s = none → Python.isUuidText (py s) = false →
      TypeScript.isUuidText (js s) = false → PlainId s

/-- The value has no number but bytes, a version that is not null, ids in the spelling of the mint
and no positional entry. -/
structure PlainValue [Python.Libraries] (j : JsonValue) : Prop where
  bytes : j.val.BytesOnly
  version : j.val.get "sig_version" ≠ some .null
  ids : ∀ k ∈ ["vaid_id", "agent_id", "parent_vaid"], ∀ s, j.val.get k = some (.str s) → PlainId s
  objects : ¬ Deserialize.HasPositionalEntry j

theorem PlainId.python [Python.Libraries] {s : String} (plain : PlainId s) :
    Python.isUuidText (py s) = (Uuid.parseStr s).isSome := by
  cases plain with
  | hyphenated u => rw [u.isUuidText_python, Uuid.parseStr_toString]; rfl
  | unread rust python _ => rw [rust, python]; rfl

theorem PlainId.typescript [Python.Libraries] {s : String} (plain : PlainId s) :
    TypeScript.isUuidText (js s) = (Uuid.parseStr s).isSome := by
  cases plain with
  | hyphenated u => rw [u.isUuidText_typescript, Uuid.parseStr_toString]; rfl
  | unread rust _ typescript => rw [rust, typescript]; rfl

theorem PlainId.spelled [Python.Libraries] {s : String} (plain : PlainId s) {u : Uuid}
    (read : Uuid.parseStr s = some u) : s = u.toString := by
  cases plain with
  | hyphenated u' =>
    rw [Uuid.parseStr_toString] at read
    cases read
    rfl
  | unread rust =>
    rw [rust] at read
    cases read

namespace Python

variable {v : PyValue} {j : Json String}

variable [Libraries]

end Python

namespace TypeScript

variable {v : JsValue} {j : Json String}

variable [Python.Libraries]

end TypeScript

end VaidSuite
