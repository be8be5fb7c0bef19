import VaidSuite.Lib.Returns
import VaidSuite.TypeScript.Stringify
import VaidSuite.TypeScript.VerifyCore

/-! Loading the trust anchor: every key is hashed again and must be filed under its own
thumbprint. -/
namespace VaidSuite.TypeScript

def base64Alphabet : JsStr := js "ABCDEFGHIJKLMNOPQRSTUVWXYZabcdefghijklmnopqrstuvwxyz0123456789+/"

/-- Tab, line feed, form feed, carriage return and space. -/
def isAsciiWhiteSpace (c : CodeUnit) : Bool := [0x09, 0x0a, 0x0c, 0x0d, 0x20].contains c.val

/-- A text without its last one or two equals signs. -/
def withoutPadding (s : JsStr) : JsStr :=
  match s.reverse with
  | 0x3d :: 0x3d :: rest | 0x3d :: rest => rest.reverse
  | _ => s

/-- `atob(s)`. `none` is an `InvalidCharacterError`. -/
def atob (s : JsStr) : Option Bytes :=
  let stripped := s.filter (fun c => !isAsciiWhiteSpace c)
  let data := if stripped.length % 4 = 0 then withoutPadding stripped else stripped
  if data.length % 4 = 1 then none else (data.mapM base64Alphabet.idxOf?).map decodeSextets

/-- Every `-` as `+`, and every `_` as `/`. -/
def toStandardAlphabet (s : JsStr) : JsStr :=
  s.map (fun c => if [c] = js "-" then 0x2b else if [c] = js "_" then 0x2f else c)

def b64urlToBytes (s : JsStr) : Option Bytes :=
  atob (toStandardAlphabet s ++ List.replicate ((4 - s.length % 4) % 4) 0x3d)

/-- What `loadAnchor` can throw: its own error, what `atob` throws, and what is thrown below it. -/
inductive AnchorError where
  | error (message : JsStr)
  | invalidCharacter
  | thrown (e : JsException)

section Loading

variable [Runtime]

/-- One entry of the published keys, hashed again. -/
def loadEntry (claimed : JsStr) (jwk : JsValue) : Except AnchorError (JsStr × AnchorEntry) :=
  let refuse (fault : String) : Except AnchorError (JsStr × AnchorEntry) :=
    .error (.error (js "trust anchor: " ++ claimed ++ js fault))
  if !thumbprintUriPrefix.isPrefixOf claimed then refuse " is not an RFC 9278 sha-256 thumbprint URI"
  else match jwk with
    | .obj members =>
      if !(Members.get members "kty").strictEq (.str (js "OKP")) ||
          !(Members.get members "crv").strictEq (.str (js "Ed25519")) then
        refuse " is not an Ed25519 OKP JWK"
      else match Members.get members "x" with
        | .str x =>
          match b64urlToBytes x with
          | none => .error .invalidCharacter
          | some key =>
            if key.length ≠ 32 then refuse " does not hold a 32-byte Ed25519 key"
            else match kernelKeyThumbprint key with
              | .error e => .error (.thrown e)
              | .ok actual =>
                if actual ≠ claimed then
                  .error (.error (js "trust anchor is corrupt: a key filed under " ++ claimed ++
                    js " actually hashes to " ++ actual ++ js (". Anyone following the documented " ++
                      "procedure would reject it. Failing closed.")))
                else .ok (claimed, ⟨key, members⟩)
        | _ => refuse " is not an Ed25519 OKP JWK"
    | _ => refuse " is not an Ed25519 OKP JWK"

/-- Load the keys of a parsed anchor file. One that is not its own takes the whole anchor down. -/
def loadAnchor (anchorDoc : JsValue) : Except AnchorError Anchor :=
  let noKeys : Except AnchorError Anchor := .error (.error
    (js "trust anchor has no keys — a trust anchor with no keys is not a trust anchor"))
  match anchorDoc with
  | .obj members =>
    match Members.get members "keys" with
    | .obj keys => if keys.isEmpty then noKeys else (ownOrder keys).mapM (fun e => loadEntry e.1 e.2)
    | .arr items =>
      -- the first key of an array is its first index
      if items.isEmpty then noKeys else items.zipIdx.mapM (fun e => loadEntry (js (toString e.2)) e.1)
    | _ => noKeys
  | _ => noKeys

theorem of_loadEntry {claimed : JsStr} {jwk : JsValue} {loaded : JsStr × AnchorEntry}
    (loads : loadEntry claimed jwk = .ok loaded) :
    loaded.2.key.length = 32 ∧ kernelKeyThumbprint loaded.2.key = .ok loaded.1 := by
  unfold loadEntry at loads
  dsimp only at loads
  split at loads
  · cases loads
  · split at loads
    · split at loads
      · cases loads
      · split at loads
        · split at loads
          · cases loads
          · split at loads
            · cases loads
            · split at loads
              · cases loads
              · rename_i length _ actual derived
                split at loads
                · cases loads
                · rename_i same
                  cases loads
                  exact ⟨not_not.mp length, derived.trans (congrArg _ (not_not.mp same))⟩
        · cases loads
    · cases loads

theorem of_loadAnchor {anchorDoc : JsValue} {anchor : Anchor} (loads : loadAnchor anchorDoc = .ok anchor)
    {thumbprint : JsStr} {entry : AnchorEntry} (found : anchor.lookup thumbprint = some entry) :
    entry.key.length = 32 ∧ kernelKeyThumbprint entry.key = .ok thumbprint := by
  have filed := InsertionMap.mem_of_lookup found
  unfold loadAnchor at loads
  dsimp only at loads
  split at loads
  · split at loads
    · split at loads
      · cases loads
      · obtain ⟨e, _, loaded⟩ := Raising.of_mapM_mem loads filed
        exact of_loadEntry loaded
    · split at loads
      · cases loads
      · obtain ⟨e, _, loaded⟩ := Raising.of_mapM_mem loads filed
        exact of_loadEntry loaded
    · cases loads
  · cases loads

end Loading

end VaidSuite.TypeScript
