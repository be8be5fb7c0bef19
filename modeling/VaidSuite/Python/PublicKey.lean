import VaidSuite.Lib.Returns
import VaidSuite.Python.IssuersExact
import VaidSuite.Python.Mcp

/-! The trust set of the MCP server's tools: one raw public key, as text, or a key file.
Exactly which texts are trusted as the key that they spell. -/
namespace VaidSuite.Python.Mcp

def hexValue (c : CodePoint) : Option Nat :=
  if 48 ≤ c.val ∧ c.val ≤ 57 then some (c.val - 48)
  else if 65 ≤ c.val ∧ c.val ≤ 70 then some (c.val - 55)
  else if 97 ≤ c.val ∧ c.val ≤ 102 then some (c.val - 87)
  else none

/-- `bytes.fromhex(text)`, which skips white space before each pair of digits. `none` is a
`ValueError`. -/
def fromhex : PyStr → Option Bytes
  | [] => some []
  | [c] => if isAsciiSpace c then some [] else none
  | c :: d :: text =>
    if isAsciiSpace c then fromhex (d :: text)
    else match hexValue c, hexValue d with
      | some high, some low => (fromhex text).map (UInt8.ofNat (16 * high + low) :: ·)
      | _, _ => none

/-- The six bits of a character, after `-` and `_` are translated to `+` and `/`. -/
def b64Value (c : CodePoint) : Option Nat :=
  if c = CodePoint.ofChar '+' then some 62
  else if c = CodePoint.ofChar '/' then some 63
  else b64urlValue c

/-- What `binascii.a2b_base64` keeps of a text, and whether it met a complete padding, where it
stops. It skips every character outside the alphabet. `pads` counts the `=` met since the last
data character, where a quad can end. -/
def dataSextets (quadPos pads : Nat) : PyStr → List Nat × Bool
  | [] => ([], false)
  | c :: text =>
    if c = CodePoint.ofChar '=' then
      if 2 ≤ quadPos then
        if 4 ≤ quadPos + (pads + 1) then ([], true) else dataSextets quadPos (pads + 1) text
      else dataSextets quadPos pads text
    else match b64Value c with
      | none => dataSextets quadPos pads text
      | some n =>
        let (rest, closed) := dataSextets ((quadPos + 1) % 4) 0 text
        (n :: rest, closed)

/-- `base64.urlsafe_b64decode(text)`. An error carries its message. -/
def urlsafeB64decode (text : PyStr) : Except PyStr Bytes :=
  if text.any (fun c => 128 ≤ c.val) then
    .error (py "string argument should contain only ASCII characters")
  else
    let (data, closed) := dataSextets 0 0 text
    if closed || data.length % 4 == 0 then .ok (decodeSextets data)
    else if data.length % 4 = 1 then
      .error (py ("Invalid base64-encoded string: number of data characters (" ++
        toString data.length ++ ") cannot be 1 more than a multiple of 4"))
    else .error (py "Incorrect padding")

/-- `padded`. -/
def pad (text : PyStr) : PyStr :=
  text ++ List.replicate ((4 - text.length % 4) % 4) (CodePoint.ofChar '=')

/-! ### What the decoders read -/

/-- The digits of bytes, two for each. -/
def nibbles (data : Bytes) : List Nat := data.flatMap (fun b => [b.toNat / 16, b.toNat % 16])

/-- Pairs of digits, with white space before some of them or at the end. -/
def isHexPairs : PyStr → Bool
  | [] => true
  | [c] => isAsciiSpace c
  | c :: d :: text =>
    if isAsciiSpace c then isHexPairs (d :: text) else isHexDigit c && isHexDigit d && isHexPairs text

theorem hexValue_isSome (c : CodePoint) : (hexValue c).isSome = isHexDigit c := by
  unfold hexValue isHexDigit
  split_ifs with digit upper lower <;> simp_all

theorem hexValue_lt {c : CodePoint} {n : Nat} (value : hexValue c = some n) : n < 16 := by
  unfold hexValue at value
  split_ifs at value <;> cases value <;> omega

theorem hexValue_of_space {c : CodePoint} (space : isAsciiSpace c = true) : hexValue c = none := by
  have undigit : isHexDigit c = false := by
    simp only [isAsciiSpace, Bool.or_eq_true, Bool.and_eq_true, decide_eq_true_eq, beq_iff_eq] at space
    simp only [isHexDigit, Bool.or_eq_false_iff, Bool.and_eq_false_iff, decide_eq_false_iff_not]
    omega
  rwa [← hexValue_isSome, Option.isSome_eq_false_iff, Option.isNone_iff_eq_none] at undigit

theorem fromhex_isSome (text : PyStr) : (fromhex text).isSome = isHexPairs text := by
  fun_induction fromhex text with
  | case1 => rfl
  | case2 c space => rw [isHexPairs, space]; rfl
  | case3 c other => rw [isHexPairs, Bool.eq_false_iff.mpr other]; rfl
  | case4 c d text space ih => rw [isHexPairs, if_pos space, ih]
  | case5 c d text other high low hd hc ih =>
    rw [isHexPairs, if_neg other, ← hexValue_isSome, ← hexValue_isSome, hc, hd, Option.isSome_map, ih]
    rfl
  | case6 c d text other undigit =>
    rw [isHexPairs, if_neg other, ← hexValue_isSome, ← hexValue_isSome]
    cases hc : hexValue c with
    | none => rfl
    | some high =>
      cases hd : hexValue d with
      | none => rfl
      | some low => exact (undigit high low hc hd).elim

theorem mapM_hexValue_of_fromhex {text : PyStr} {data : Bytes} (read : fromhex text = some data)
    (unspaced : ∀ c ∈ text, isAsciiSpace c = false) : text.mapM hexValue = some (nibbles data) := by
  fun_induction fromhex text generalizing data with
  | case1 =>
    cases read
    rfl
  | case2 c space =>
    rw [unspaced c List.mem_cons_self] at space
    cases space
  | case3 c other => cases read
  | case4 c d text space ih =>
    rw [unspaced c List.mem_cons_self] at space
    cases space
  | case5 c d text other high low hd hc ih =>
    obtain ⟨rest, readRest, rfl⟩ := Option.map_eq_some_iff.mp read
    have digits := ih readRest (fun b member => unspaced b (by simp [member]))
    have highSmall := hexValue_lt hc
    have lowSmall := hexValue_lt hd
    have byte : (UInt8.ofNat (16 * high + low)).toNat = 16 * high + low := by
      rw [UInt8.toNat_ofNat']
      omega
    have first : (16 * high + low) / 16 = high := by omega
    have second : (16 * high + low) % 16 = low := by omega
    have spelled : nibbles (UInt8.ofNat (16 * high + low) :: rest) = high :: low :: nibbles rest := by
      rw [nibbles, List.flatMap_cons, byte, first, second]
      rfl
    rw [spelled]
    simp [List.mapM_cons, hc, hd, digits]
  | case6 c d text other undigit => cases read

theorem fromhex_of_mapM_hexValue {text : PyStr} {data : Bytes}
    (digits : text.mapM hexValue = some (nibbles data)) :
    fromhex text = some data ∧ ∀ c ∈ text, isAsciiSpace c = false := by
  have undigit : ∀ {c n}, hexValue c = some n → isAsciiSpace c = false := by
    intro c n value
    by_contra space
    rw [hexValue_of_space (Bool.eq_true_of_not_eq_false space)] at value
    cases value
  induction data generalizing text with
  | nil =>
    cases text with
    | nil => exact ⟨rfl, by simp⟩
    | cons c text => simp [List.mapM_cons, nibbles, Option.bind_eq_some_iff] at digits
  | cons b data ih =>
    match text with
    | [] => simp [nibbles] at digits
    | [c] => simp [List.mapM_cons, nibbles, Option.bind_eq_some_iff] at digits
    | c :: d :: text =>
      simp only [List.mapM_cons, nibbles, List.flatMap_cons, List.cons_append, List.nil_append,
        Option.pure_def, Option.bind_eq_bind, Option.bind_eq_some_iff, Option.some.injEq,
        List.cons.injEq] at digits
      obtain ⟨high, hc, _, ⟨low, hd, rest, digits, rfl⟩, rfl, rfl, rfl⟩ := digits
      obtain ⟨readRest, unspaced⟩ := ih digits
      have byte : UInt8.ofNat (16 * (b.toNat / 16) + b.toNat % 16) = b := ofNat_eq (by omega)
      refine ⟨?_, List.forall_mem_cons.mpr ⟨undigit hc, List.forall_mem_cons.mpr ⟨undigit hd, unspaced⟩⟩⟩
      simp [fromhex, undigit hc, hc, hd, readRest, byte]

theorem mapM_hexValue_iff {text : PyStr} {data : Bytes} :
    text.mapM hexValue = some (nibbles data) ↔
      fromhex text = some data ∧ ∀ c ∈ text, isAsciiSpace c = false :=
  ⟨fromhex_of_mapM_hexValue, fun ⟨read, unspaced⟩ => mapM_hexValue_of_fromhex read unspaced⟩

theorem length_nibbles (data : Bytes) : (nibbles data).length = 2 * data.length := by
  simp [nibbles, Nat.mul_comm]

/-- How many data characters stand before the first complete padding, if there is one. -/
def dataBeforePadding (quadPos pads : Nat) : PyStr → Option Nat
  | [] => none
  | c :: text =>
    if c = CodePoint.ofChar '=' then
      if 2 ≤ quadPos then
        if 4 ≤ quadPos + (pads + 1) then some 0 else dataBeforePadding quadPos (pads + 1) text
      else dataBeforePadding quadPos pads text
    else match b64Value c with
      | none => dataBeforePadding quadPos pads text
      | some _ => (dataBeforePadding ((quadPos + 1) % 4) 0 text).map (· + 1)

theorem dataBeforePadding_eq (quadPos pads : Nat) (text : PyStr) :
    dataBeforePadding quadPos pads text = if (dataSextets quadPos pads text).2 then
      some (dataSextets quadPos pads text).1.length else none := by
  fun_induction dataSextets quadPos pads text with
  | case1 => rfl
  | case2 quadPos pads text inQuad complete => simp [dataBeforePadding, inQuad, complete]
  | case3 quadPos pads text inQuad more ih => simp [dataBeforePadding, inQuad, more, ih]
  | case4 quadPos pads text early ih => simp [dataBeforePadding, early, ih]
  | case5 quadPos pads c text data foreign ih => simp [dataBeforePadding, data, foreign, ih]
  | case6 quadPos pads c text data n value rest closed found ih =>
    simp only [dataBeforePadding, data, value, ih, found, if_false]
    cases closed <;> rfl

theorem dataSextets_append {text : PyStr} {data : List Nat} (read : text.mapM b64urlValue = some data)
    {quadPos : Nat} (inQuad : quadPos < 4) (rest : PyStr) : dataSextets quadPos 0 (text ++ rest) =
      (data ++ (dataSextets ((quadPos + data.length) % 4) 0 rest).1,
        (dataSextets ((quadPos + data.length) % 4) 0 rest).2) := by
  induction text generalizing data quadPos with
  | nil =>
    cases read
    simp [Nat.mod_eq_of_lt inQuad]
  | cons c text ih =>
    rw [List.mapM_cons] at read
    obtain ⟨n, value, read⟩ := Option.bind_eq_some_iff.mp read
    obtain ⟨data, readRest, read⟩ := Option.bind_eq_some_iff.mp read
    cases read
    have other : ∀ foreign, b64urlValue foreign = none → c ≠ foreign := by
      rintro _ unread rfl
      rw [unread] at value
      cases value
    have notPad : c ≠ CodePoint.ofChar '=' := other _ (by decide)
    have value' : b64Value c = some n := by
      rw [b64Value, if_neg (other _ (by decide)), if_neg (other _ (by decide)), value]
    have quad : ((quadPos + 1) % 4 + data.length) % 4 = (quadPos + (n :: data).length) % 4 := by
      rw [List.length_cons]
      omega
    rw [List.cons_append, dataSextets, if_neg notPad]
    simp only [value', ih readRest (Nat.mod_lt _ (by decide)), quad, List.cons_append]

def isUnpadded (text : PyStr) : Bool :=
  (text.mapM b64urlValue).any (fun data => data.length == 43 && isCanonical data)

theorem isUnpadded_iff {text : PyStr} :
    isUnpadded text = true ↔ ∃ key : Bytes, key.length = 32 ∧ text = b64url key := by
  unfold isUnpadded
  constructor
  · intro unpadded
    obtain ⟨data, read, canonical⟩ := (Option.any_eq_true _ _).mp unpadded
    obtain ⟨length, canonical⟩ := Bool.and_eq_true_iff.mp canonical
    obtain ⟨rfl, small⟩ := of_mapM_b64urlValue read
    refine ⟨decodeSextets data, ?_, ?_⟩
    · rw [length_decodeSextets, beq_iff_eq.mp length]
    · rw [b64url_eq, sextets_decodeSextets small canonical]
  · rintro ⟨key, length, rfl⟩
    rw [b64url_eq, mapM_sextetPoint (sextets_lt key), Option.any_some, isCanonical_sextets,
      length_sextets, length]
    rfl

def reads32Bytes (text : PyStr) : Bool :=
  !text.any (fun c => 128 ≤ c.val) && dataBeforePadding 0 0 text == some 43

theorem urlsafeB64decode_reads {text : PyStr} (reads : reads32Bytes text = true) :
    ∃ key, urlsafeB64decode text = .ok key ∧ key.length = 32 := by
  obtain ⟨ascii, counted⟩ := Bool.and_eq_true_iff.mp reads
  rw [Bool.not_eq_true'] at ascii
  rw [beq_iff_eq, dataBeforePadding_eq] at counted
  split_ifs at counted with closed
  refine ⟨decodeSextets (dataSextets 0 0 text).1, ?_, ?_⟩
  · rw [urlsafeB64decode, ascii]
    simp [closed]
  · rw [length_decodeSextets, Option.some.inj counted]

theorem reads_of_urlsafeB64decode {text : PyStr} {key : Bytes} (decoded : urlsafeB64decode text = .ok key)
    (length : key.length = 32) : reads32Bytes text = true := by
  unfold urlsafeB64decode at decoded
  dsimp only at decoded
  split_ifs at decoded with foreign whole
  rw [Except.ok.injEq] at decoded
  have count := length_decodeSextets (dataSextets 0 0 text).1
  rw [decoded, length] at count
  have closed : (dataSextets 0 0 text).2 = true := by
    rcases Bool.or_eq_true_iff.mp whole with closed | quads
    · exact closed
    · rw [beq_iff_eq] at quads
      omega
  have counted : dataBeforePadding 0 0 text = some 43 := by
    rw [dataBeforePadding_eq, if_pos closed]
    exact congrArg some (by omega)
  rw [reads32Bytes, counted, Bool.eq_false_iff.mpr foreign]
  rfl

theorem urlsafeB64decode_b64url {key : Bytes} (length : key.length = 32) :
    urlsafeB64decode (pad (b64url key)) = .ok key := by
  have chars : (b64url key).length = 43 := by rw [length_b64url, length]
  have read := mapM_sextetPoint (sextets_lt key)
  rw [← b64url_eq] at read
  have count : (sextets key).length = 43 := by rw [length_sextets, length]
  have ascii : (pad (b64url key)).any (fun c => 128 ≤ c.val) = false := by
    have each : ∀ i : Fin 64, (sextetPoint i.val).val < 128 := by decide +kernel
    rw [pad, chars, b64url_eq, List.any_append, List.any_map, Bool.or_eq_false_iff]
    refine ⟨List.any_eq_false.mpr (fun n member => ?_), by decide⟩
    simpa using each ⟨n, sextets_lt key n member⟩
  rw [urlsafeB64decode, ascii, pad, dataSextets_append read (by decide), chars, count]
  simp [dataSextets, decodeSextets_sextets]

/-- What `resolve_keys` can raise. -/
inductive KeyFailure where
  | keySource (message : PyStr)
  | attributeError
  | raised (e : PyException)
  deriving DecidableEq

section Keys

variable [Libraries]

def isStrSpace (c : CodePoint) : Bool :=
  if c.val < 128 then (9 ≤ c.val && c.val ≤ 13) || (28 ≤ c.val && c.val ≤ 32)
  else c.toChar?.any Libraries.isSpace

def strip (text : PyStr) : PyStr :=
  ((text.dropWhile isStrSpace).reverse.dropWhile isStrSpace).reverse

def decodePublicKey (value : PyStr) : Except KeyFailure Bytes :=
  let text := strip value
  match if text.length = 64 then fromhex text else none with
  | some key => .ok key
  | none =>
    match urlsafeB64decode (pad text) with
    | .error exc => .error (.keySource
        (py "public_key is neither 64 hex characters nor base64url: " ++ exc))
    | .ok key =>
      if key.length ≠ 32 then .error (.keySource
        (py ("decoded public_key is " ++ toString key.length ++ " bytes, expected 32 (raw Ed25519)")))
      else .ok key

def jwkToRaw : PyValue → Except KeyFailure Bytes
  | .obj jwk =>
    if !pyEq (Dict.get jwk "kty") (.str (py "OKP")) || !pyEq (Dict.get jwk "crv") (.str (py "Ed25519")) then
      .error (.keySource (py "unsupported JWK kty/crv: " ++ format (Dict.get jwk "kty") ++ py "/" ++
        format (Dict.get jwk "crv")))
    else match Dict.get jwk "x" with
      | .str x =>
        match urlsafeB64decode (pad x) with
        | .error _ => .error (.raised .valueError)
        | .ok raw =>
          if raw.length ≠ 32 then .error (.keySource
            (py ("JWK 'x' decodes to " ++ toString raw.length ++ " bytes, expected 32")))
          else .ok raw
      | _ => .error (.keySource (py "JWK entry has no 'x' coordinate"))
  | _ => .error .attributeError

/-- `SingleKernelKey(public_key)`, with the key's own thumbprint. -/
def singleKernelKey (thumbprint : PyStr) (publicKey : Bytes) : KernelKeyResolver :=
  fun claimed => .ok (if pyEq claimed (.str thumbprint) then some publicKey else none)

/-- `KernelKeyMap(public_keys)`, with each key's own thumbprint. -/
def kernelKeyMap (keys : List (PyStr × Bytes)) : KernelKeyResolver
  | .str claimed => .ok ((InsertionMap.ofList Prod.fst keys).lookup claimed |>.map Prod.snd)
  | .arr _ | .obj _ => .error (.typeError)
  | .null | .bool _ | .num _ => .ok none

def keyEntry (keyUrl : PyStr) (entry : PyStr × PyValue) : Except KeyFailure (PyStr × Bytes) := do
  let raw ← jwkToRaw entry.2
  let actual ← (kernelKeyThumbprint raw).mapError .raised
  if actual ≠ entry.1 then
    throw (.keySource (py "key_url " ++ reprStr keyUrl ++ py " entry " ++ reprStr entry.1 ++
      py " does not match its own key material (recomputed thumbprint is " ++ reprStr actual ++
      py ") — refusing a key file that cannot authenticate its own table"))
  return (actual, raw)

/-- `resolve_keys`. A key file comes from `fetchKeyUrl`, the one network call. -/
def resolveKeys (fetchKeyUrl : PyStr → Except KeyFailure PyValue) (publicKey keyUrl : Option PyStr) :
    Except KeyFailure ResolvedKeys := do
  match publicKey.filter (· ≠ []), keyUrl.filter (· ≠ []) with
  | some publicKey, none =>
    let raw ← decodePublicKey publicKey
    let thumbprint ← (kernelKeyThumbprint raw).mapError .raised
    return ⟨singleKernelKey thumbprint raw, [thumbprint], py "public_key"⟩
  | none, some keyUrl =>
    match ← fetchKeyUrl keyUrl with
    | .obj doc =>
      match Dict.get doc "keys" with
      | .obj (key :: keys) =>
        let rawKeys ← (key :: keys).mapM (keyEntry keyUrl)
        return ⟨kernelKeyMap rawKeys, (key :: keys).map Prod.fst, keyUrl⟩
      | _ => throw (.keySource (py "key_url " ++ reprStr keyUrl ++
          py (" returned no usable 'keys' map (expected the vaid-keys.json shape: " ++
            "\x7b\"keys\": \x7b\"<thumbprint>\": \x7bJWK...\x7d\x7d\x7d)")))
    | _ => throw .attributeError
  | _, _ => throw (.keySource
      (py "supply exactly one of public_key or key_url, not both and not neither"))

/-! ### Which texts are trusted as the key that they spell -/

omit [Libraries] in
/-- A text that spells a raw key: 64 hexadecimal digits, or unpadded base64url. -/
def Spells (text : PyStr) (key : Bytes) : Prop :=
  key.length = 32 ∧ (text.mapM hexValue = some (nibbles key) ∨ text = b64url key)

omit [Libraries] in
/-- 64 characters, digits in pairs and some white space. -/
def isSpacedHex (text : PyStr) : Bool :=
  text.length == 64 && isHexPairs text && text.any isAsciiSpace

omit [Libraries] in
/-- Not read as digits, and 32 bytes for the lenient decoder only. -/
def isLooseBase64 (text : PyStr) : Bool :=
  !(text.length == 64 && isHexPairs text) && reads32Bytes (pad text) && !isUnpadded text

omit [Libraries] in
theorem Spells.length {text : PyStr} {key : Bytes} (spells : Spells text key) :
    text.mapM hexValue = some (nibbles key) ∧ text.length = 64 ∨ text = b64url key ∧ text.length = 43 := by
  obtain ⟨length, digits | rfl⟩ := spells
  · refine .inl ⟨digits, ?_⟩
    have count := congrArg List.length (Raising.map_of_mapM digits)
    rwa [List.length_map, List.length_map, length_nibbles, length] at count
  · exact .inr ⟨rfl, by rw [length_b64url, length]⟩

theorem decodePublicKey_of_spells {value : PyStr} {key : Bytes} (spells : Spells (strip value) key) :
    decodePublicKey value = .ok key := by
  unfold decodePublicKey
  rcases spells.length with ⟨digits, length⟩ | ⟨unpadded, length⟩
  · simp only [length, if_true, (mapM_hexValue_iff.mp digits).1]
  · have decoded := urlsafeB64decode_b64url spells.1
    rw [← unpadded] at decoded
    simp [length, decoded, spells.1]

theorem decodePublicKey_cases (value : PyStr) :
    (∃ key, decodePublicKey value = .ok key ∧ (strip value).length = 64 ∧ fromhex (strip value) = some key) ∨
    ((strip value).length == 64 && isHexPairs (strip value)) = false ∧
      ((reads32Bytes (pad (strip value)) = true ∧ ∃ key, decodePublicKey value = .ok key ∧ key.length = 32) ∨
      reads32Bytes (pad (strip value)) = false ∧ ∃ message, decodePublicKey value = .error (.keySource message)) := by
  cases digits : if (strip value).length = 64 then fromhex (strip value) else none with
  | some key =>
    have decoded : decodePublicKey value = .ok key := by simp only [decodePublicKey, digits]
    split_ifs at digits with length
    exact .inl ⟨key, decoded, length, digits⟩
  | none =>
    have unhex : ((strip value).length == 64 && isHexPairs (strip value)) = false := by
      rw [← fromhex_isSome]
      by_cases length : (strip value).length = 64
      · rw [if_pos length] at digits
        rw [digits, Option.isSome_none, Bool.and_false]
      · rw [beq_eq_false_iff_ne.mpr length, Bool.false_and]
    refine .inr ⟨unhex, ?_⟩
    cases reads : reads32Bytes (pad (strip value)) with
    | true =>
      obtain ⟨key, decoded, length⟩ := urlsafeB64decode_reads reads
      exact .inl ⟨rfl, key, by simp [decodePublicKey, digits, decoded, length], length⟩
    | false =>
      refine .inr ⟨rfl, ?_⟩
      cases decoded : urlsafeB64decode (pad (strip value)) with
      | error exc =>
        refine ⟨py "public_key is neither 64 hex characters nor base64url: " ++ exc, ?_⟩
        simp only [decodePublicKey, digits, decoded]
      | ok key =>
        have length : key.length ≠ 32 := by
          intro length
          rw [reads_of_urlsafeB64decode decoded length] at reads
          cases reads
        refine ⟨py ("decoded public_key is " ++ toString key.length ++ " bytes, expected 32 (raw Ed25519)"), ?_⟩
        simp only [decodePublicKey, digits, decoded, if_pos length]

/-- A decoded key is the one that was written, unless a permissive decoder skipped something. -/
theorem decodePublicKey_spells_iff (value : PyStr) :
    (∀ key, decodePublicKey value = .ok key → Spells (strip value) key) ↔
      isSpacedHex (strip value) = false ∧ isLooseBase64 (strip value) = false := by
  have cases_ := decodePublicKey_cases value
  constructor
  · intro written
    constructor
    · by_contra spaced
      rw [Bool.not_eq_false, isSpacedHex, Bool.and_eq_true_iff] at spaced
      obtain ⟨hex, space⟩ := spaced
      rcases cases_ with ⟨key, decoded, length, digits⟩ | ⟨unhex, _⟩
      · rcases (written key decoded).length with ⟨spelled, _⟩ | ⟨_, other⟩
        · obtain ⟨c, member, isSpace⟩ := List.any_eq_true.mp space
          rw [(mapM_hexValue_iff.mp spelled).2 c member] at isSpace
          cases isSpace
        · omega
      · rw [unhex] at hex
        cases hex
    · by_contra loose
      simp only [Bool.not_eq_false, isLooseBase64, Bool.and_eq_true_iff, Bool.not_eq_true'] at loose
      obtain ⟨⟨unhex, reads⟩, padded⟩ := loose
      rcases cases_ with ⟨key, decoded, length, digits⟩ | ⟨_, ⟨_, key, decoded, length⟩ | ⟨unread, _⟩⟩
      · rw [length, ← fromhex_isSome, digits] at unhex
        cases unhex
      · rcases (written key decoded).length with ⟨spelled, length⟩ | ⟨unpadded, _⟩
        · rw [length, ← fromhex_isSome, (mapM_hexValue_iff.mp spelled).1] at unhex
          cases unhex
        · rw [isUnpadded_iff.mpr ⟨key, (written key decoded).1, unpadded⟩] at padded
          cases padded
      · rw [unread] at reads
        cases reads
  · rintro ⟨spaced, loose⟩ key decoded
    rcases cases_ with ⟨key', decoded', length, digits⟩ | ⟨unhex, ⟨reads, _⟩ | ⟨_, message, refused⟩⟩
    · rw [decoded] at decoded'
      cases decoded'
      have unspaced : ∀ c ∈ strip value, isAsciiSpace c = false := by
        intro c member
        rw [isSpacedHex, length, ← fromhex_isSome, digits] at spaced
        simpa using List.any_eq_false.mp spaced c member
      have spelled := mapM_hexValue_of_fromhex digits unspaced
      have count := congrArg List.length (Raising.map_of_mapM spelled)
      rw [List.length_map, List.length_map, length_nibbles, length] at count
      exact ⟨by omega, .inl spelled⟩
    · rw [isLooseBase64, unhex, reads] at loose
      obtain ⟨key', length, unpadded⟩ := isUnpadded_iff.mp (by simpa using loose)
      have spells : Spells (strip value) key' := ⟨length, .inr unpadded⟩
      rw [decodePublicKey_of_spells spells] at decoded
      cases decoded
      exact spells
    · rw [decoded] at refused
      cases refused

theorem resolveKeys_cases (documented : CanonicalizesDocumented)
    (fetchKeyUrl : PyStr → Except KeyFailure PyValue) (s : PyStr) :
    (∃ key t, decodePublicKey s = .ok key ∧ kernelKeyThumbprint key = .ok t ∧
      resolveKeys fetchKeyUrl (some s) none = .ok ⟨singleKernelKey t key, [t], py "public_key"⟩) ∨
    (∀ key, decodePublicKey s ≠ .ok key) ∧
      ∃ message, resolveKeys fetchKeyUrl (some s) none = .error (.keySource message) := by
  cases s with
  | nil =>
    have length : (strip []).length = 0 := rfl
    have unread : reads32Bytes (pad []) = false := by decide
    refine .inr ⟨fun key decoded => ?_, _, rfl⟩
    rcases decodePublicKey_cases [] with ⟨_, _, long, _⟩ | ⟨_, ⟨reads, _⟩ | ⟨_, message, refused⟩⟩
    · omega
    · exact absurd reads (Bool.eq_false_iff.mp unread)
    · rw [decoded] at refused
      cases refused
  | cons c s =>
    have given : (some (c :: s)).filter (· ≠ []) = some (c :: s) := by simp
    simp only [resolveKeys, given, Option.filter_none]
    cases decoded : decodePublicKey (c :: s) with
    | ok key =>
      obtain ⟨t, derives⟩ := kernelKeyThumbprint_ok documented key
      exact .inl ⟨key, t, rfl, derives, by rw [Raising.ok_bind, derives]; rfl⟩
    | error e =>
      refine .inr ⟨by rintro _ ⟨⟩, ?_⟩
      rcases decodePublicKey_cases (c :: s) with ⟨key, ok, _⟩ | ⟨_, ⟨_, key, ok, _⟩ | ⟨_, message, refused⟩⟩
      · rw [ok] at decoded
        cases decoded
      · rw [ok] at decoded
        cases decoded
      · rw [refused] at decoded
        cases decoded
        exact ⟨message, rfl⟩

/-- Only a key that was written is trusted, and a text that spells none is refused as such. -/
structure TrustsWritten (fetchKeyUrl : PyStr → Except KeyFailure PyValue) (s : PyStr) : Prop where
  trusted : ∀ keys, resolveKeys fetchKeyUrl (some s) none = .ok keys → ∃ key t, Spells (strip s) key ∧
    kernelKeyThumbprint key = .ok t ∧ keys.resolver = singleKernelKey t key ∧ keys.thumbprints = [t]
  spelled : ∀ key, Spells (strip s) key → ∃ keys, resolveKeys fetchKeyUrl (some s) none = .ok keys
  refused : ∀ e, resolveKeys fetchKeyUrl (some s) none = .error e → ∃ message, e = .keySource message

/-- The written key is trusted, unless the text is one in which a decoder skips something. -/
theorem trustsWritten_iff (documented : CanonicalizesDocumented)
    (fetchKeyUrl : PyStr → Except KeyFailure PyValue) (s : PyStr) : TrustsWritten fetchKeyUrl s ↔
      isSpacedHex (strip s) = false ∧ isLooseBase64 (strip s) = false := by
  rw [← decodePublicKey_spells_iff]
  rcases resolveKeys_cases documented fetchKeyUrl s with
    ⟨key, t, decoded, derives, resolved⟩ | ⟨undecoded, message, refused⟩
  · constructor
    · intro trusts key' decoded'
      rw [decoded] at decoded'
      cases decoded'
      obtain ⟨written, _, spells, _⟩ := trusts.trusted _ resolved
      rw [decodePublicKey_of_spells spells] at decoded
      cases decoded
      exact spells
    · intro written
      constructor
      · intro keys resolved'
        rw [resolved] at resolved'
        cases resolved'
        exact ⟨key, t, written key decoded, derives, rfl, rfl⟩
      · exact fun _ _ => ⟨_, resolved⟩
      · intro e failed
        rw [resolved] at failed
        cases failed
  · constructor
    · exact fun _ key decoded => absurd decoded (undecoded key)
    · intro _
      constructor
      · intro keys resolved
        rw [refused] at resolved
        cases resolved
      · exact fun key spells => absurd (decodePublicKey_of_spells spells) (undecoded key)
      · intro e failed
        rw [refused] at failed
        cases failed
        exact ⟨message, rfl⟩

end Keys

section Example

local instance keyLibraries : Libraries := jwkLibraries

def unreachable (_ : PyStr) : Except KeyFailure PyValue := .error (.keySource (py "no network"))

def zeros (n : Nat) : PyStr := List.replicate n (CodePoint.ofChar '0')

theorem trustsWritten_zeros : TrustsWritten unreachable (py " " ++ zeros 64 ++ py "\n") :=
  (trustsWritten_iff jwkLibraries_documented unreachable _).mpr (by decide +kernel)

/-- The text has 64 characters, and 31 bytes are trusted as its key. -/
theorem spacedKey_trusted : ¬ TrustsWritten unreachable (zeros 30 ++ py "  " ++ zeros 32) := by
  intro trusts
  have decoded : decodePublicKey (zeros 30 ++ py "  " ++ zeros 32) = .ok (List.replicate 31 0) := by
    decide +kernel
  rcases resolveKeys_cases jwkLibraries_documented unreachable (zeros 30 ++ py "  " ++ zeros 32) with
    ⟨_, _, _, _, resolved⟩ | ⟨undecoded, _⟩
  · obtain ⟨key, _, spells, _⟩ := trusts.trusted _ resolved
    rcases spells.length with ⟨digits, _⟩ | ⟨_, length⟩
    · have undigit : (strip (zeros 30 ++ py "  " ++ zeros 32)).mapM hexValue = none := by decide +kernel
      rw [undigit] at digits
      cases digits
    · revert length
      decide +kernel
  · exact undecoded _ decoded

end Example

end VaidSuite.Python.Mcp
