import VaidSuite.TypeScript.Chain

/-! The envelope of the skill: the wire form of a document and its presented ancestors. -/
namespace VaidSuite.TypeScript

variable [Runtime]

def envelopePrefix : JsStr := js "vaid1:"

/-- White space and line ends, as `trim` and `\s` read them. -/
def isWhiteSpace (c : CodeUnit) : Bool :=
  (0x09 ≤ c.val && c.val ≤ 0x0d) || (0x2000 ≤ c.val && c.val ≤ 0x200a) ||
    [0x20, 0xa0, 0x1680, 0x2028, 0x2029, 0x202f, 0x205f, 0x3000, 0xfeff].contains c.val

def trim (s : JsStr) : JsStr :=
  ((s.dropWhile isWhiteSpace).reverse.dropWhile isWhiteSpace).reverse

/-- The six bits that a character of the base64url alphabet stands for. -/
def sextetOf (c : CodeUnit) : Option Nat := (base64UrlAlphabet.map utf16).idxOf? [c]

/-- `fromBase64Url`, of a token of that alphabet. `none` when `atob` throws. -/
def fromBase64Url (sextets : List Nat) : Option Bytes :=
  if sextets.length % 4 = 1 then none else some (decodeSextets sextets)

/-- What an envelope holds. -/
structure Parsed where
  vaid : Members
  chain : List Members
  bare : Bool

/-- The error of the function under it carries its message. -/
abbrev EnvelopeResult (α : Type) := Except JsStr α

def chainDocuments (items : List JsValue) : EnvelopeResult (List Members) :=
  items.mapM (fun d =>
    match d with
    | .obj document => .ok document
    | _ => .error (js "envelope \"chain\" holds something that is not a VAID document"))

def normalise (obj : JsValue) : EnvelopeResult Parsed :=
  match obj with
  | .obj members =>
    let v := Members.get members "v"
    let vaid := Members.get members "vaid"
    if v.strictEq .undefined && vaid.strictEq .undefined then .ok ⟨members, [], true⟩
    else if !v.strictEq (.ofNat 1) then
      .error (js "envelope version " ++ Runtime.stringify v ++
        js " is not supported (this build reads v1)")
    else match vaid with
      | .obj document =>
        match (Members.get members "chain").orElse (.arr []) with
        | .arr items => (chainDocuments items).map (fun chain => ⟨document, chain, false⟩)
        | _ => .error (js "envelope \"chain\" is not an array")
      | _ => .error (js "envelope has no \"vaid\" document")
  | _ => .error (js "expected a JSON object")

def parseJson (s : JsStr) : EnvelopeResult JsValue :=
  match jsonParse s with
  | some v => .ok v
  | none => .error (js "not parseable JSON: " ++ Runtime.syntaxError s)

/-- The JSON text of an input: what a `vaid1:` token decodes to, or the input itself. -/
def envelopeJson (input : JsStr) : EnvelopeResult JsStr :=
  let trimmed := trim input
  if trimmed = [] then .error (js "nothing to parse")
  else if envelopePrefix.isPrefixOf trimmed then
    let token := (trimmed.drop envelopePrefix.length).filter (fun c => !isWhiteSpace c)
    match token.mapM sextetOf with
    | none | some [] => .error (js "the vaid1: token is not valid base64url")
    | some sextets =>
      match fromBase64Url sextets with
      | none => .error (js "the vaid1: token did not decode")
      | some bytes => .ok (decode bytes)
  else if (js "\x7b").isPrefixOf trimmed then .ok trimmed
  else .error (js "not a vaid1: token and not JSON")

/-- Parse a token, a bare envelope object or a bare document. -/
def parseEnvelope (input : JsStr) : EnvelopeResult Parsed := do
  normalise (← parseJson (← envelopeJson input))

end VaidSuite.TypeScript
