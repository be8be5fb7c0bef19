import Mathlib.Data.List.Sort
import VaidSuite.Lib.JsonAscii
import VaidSuite.Lib.JsonNumeral
import VaidSuite.Python.Svid

/-! Proof that the presenter of an SVID holds its private key: a one-time challenge over the key
that is being registered. -/
namespace VaidSuite.Python

structure SvidPossession where
  nonce : PyStr
  issuedAt : PyStr
  signature : Bytes

def possessionFreshnessSecs : Nat := 300

/-- What the SVID key signs, with the operating key in it. -/
def buildSvidPossessionPayload (operatingPublicKeyDer : Bytes) (nonce issuedAt : PyStr) : Dict :=
  [(py "operatingPublicKeyDer", .ofBytes operatingPublicKeyDer),
   (py "nonce", .str nonce),
   (py "issuedAt", .str issuedAt)]

def intText (n : Int) : JsonText.Text :=
  if n < 0 then 0x2d :: JsonText.natText n.natAbs else JsonText.natText n.natAbs

def asciiText (s : PyStr) : JsonText.Text := JsonText.asciiSpelling (s.map Fin.val)

section Dumps

variable [Libraries]

mutual

/-- What `json.dumps` writes with sorted keys. A `float` is written as its `repr`. -/
def treeOf : PyValue → JsonText.Tree
  | .null => .null
  | .bool b => .bool b
  | .num (.int n) => .num (intText n)
  | .num (.float b) => .num ((Libraries.repr (.num (.float b))).map Fin.val)
  | .str s => .str (asciiText s)
  | .arr items => .arr (treesOf items)
  | .obj members => .obj (((memberTrees members).insertionSort (fun m m' => m.1 ≤ m'.1)).map
      (fun m => (asciiText m.1, m.2)))

def treesOf : List PyValue → List JsonText.Tree
  | [] => []
  | v :: items => treeOf v :: treesOf items

def memberTrees : List (PyStr × PyValue) → List (PyStr × JsonText.Tree)
  | [] => []
  | (name, v) :: members => (name, treeOf v) :: memberTrees members

end

/-- `json.dumps(payload, sort_keys=True, separators=(",", ":"))`. -/
def jsonDumps (payload : PyValue) : PyStr := (treeOf payload).text.map (Fin.ofNat 0x110000)

def canonicalSvidPossessionBytes (payload : Dict) : Raises Bytes := encode (jsonDumps (.obj payload))

end Dumps

variable [Libraries] [SvidLibraries]

/-- `_verify_with_leaf_key`. A signature that does not verify is `InvalidSignature`. -/
def verifyWithLeafKey (leaf : Certificate) (message signature : Bytes) :
    Except MintError (Option Unit) :=
  let verified := fun (valid : Bool) => (.ok (if valid then some () else none) : Except MintError _)
  match SvidLibraries.publicKey leaf with
  | .ed25519 key => verified (Libraries.ed25519Verify key signature message)
  | .ellipticCurve key => verified (SvidLibraries.ecdsaSha256Verify key signature message)
  | .rsa key => verified (SvidLibraries.rsaPkcs1Sha256Verify key signature message)
  | .other typeName => .error (.identity (py "SVID leaf key type " ++ typeName ++
      py (" is not supported for a possession proof - supported: Ed25519, EC (ECDSA/SHA-256), RSA " ++
        "(PKCS#1 v1.5/SHA-256)")))

/-- `verify_svid_possession`, over the nonces consumed so far: fresh, not replayed, and signed. The
nonce is recorded before the signature is looked at. -/
def verifySvidPossession (now : UtcDatetime) (leaf : Certificate) (operatingPublicKeyDer : Bytes)
    (possession : SvidPossession) (freshnessSecs : Nat) : Fallible (Finset PyStr) MintError PUnit := do
  let issued ← Fallible.required (Libraries.strptime possession.issuedAt) (.raised .valueError)
  let skew := ((now.val : Int) - issued.val).natAbs
  Fallible.refuseIf (freshnessSecs * 1000000 < skew) (.identity
    (py "SVID possession timestamp outside freshness window (" ++
      py (toString (TrueDivision.wholePart skew 1000000)) ++ py "s > " ++ py (toString freshnessSecs) ++
      py "s)"))
  let replayed ← Fallible.read (fun consumed => decide (possession.nonce ∈ consumed))
  Fallible.refuseIf (replayed = true)
    (.identity (py "SVID possession nonce already used - replay rejected"))
  Fallible.atomically (fun consumed => (.ok ⟨⟩, insert possession.nonce consumed))
  let payload := buildSvidPossessionPayload operatingPublicKeyDer possession.nonce possession.issuedAt
  let message ← Fallible.ofExcept (raising (canonicalSvidPossessionBytes payload))
  let verified ← Fallible.ofExcept (verifyWithLeafKey leaf message possession.signature)
  Fallible.refuseIf (verified = none) (.identity
    (py "SVID possession proof does not verify against the SVID leaf's public key - cannot bind an " ++
      py "SVID you do not hold the key for"))

end VaidSuite.Python
