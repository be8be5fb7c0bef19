import VaidSuite.Identity
import VaidSuite.Lib.TrueDivision
import VaidSuite.Python.Value

/-! What the Python packages import. Hashing, canonicalization, signatures, the reading
and printing of values and the Unicode database are parameters. UUIDs, UTC instants and
base64url are modelled. -/
namespace VaidSuite.Python

/-- An aware UTC `datetime`: the microseconds since the first instant of the year 1,
up to the last of the year 9999. -/
abbrev UtcDatetime := Fin 315537897600000000

instance neZero_utcMicros : NeZero 315537897600000000 := ⟨by decide⟩

/-- What `datetime.fromisoformat` reads: a `datetime` without an offset, or the instant
it denotes, which may lie outside the years that a UTC `datetime` can hold. -/
inductive Datetime where
  | naive
  | aware (utcMicros : Int)
  deriving DecidableEq

/-- The UTC `datetime` of an instant. Outside the years 1 to 9999 it overflows. -/
def utcDatetime (utcMicros : Int) : Raises UtcDatetime :=
  if h : 0 ≤ utcMicros ∧ utcMicros < 315537897600000000 then
    .ok ⟨utcMicros.toNat, by omega⟩
  else .error .overflowError

def UtcDatetime.epochMicros (d : UtcDatetime) : Int := d.val - 62135596800000000

/-- `int(d.timestamp())`. The timestamp is a float, and `int` drops its fraction. -/
def UtcDatetime.wholeTimestamp (d : UtcDatetime) : Int :=
  if 0 ≤ d.epochMicros then TrueDivision.wholePart d.epochMicros.toNat 1000000
  else -TrueDivision.wholePart (-d.epochMicros).toNat 1000000

theorem UtcDatetime.wholeTimestamp_eq {d : UtcDatetime} (since1970 : 0 ≤ d.epochMicros) :
    d.wholeTimestamp = d.epochMicros / 1000000 +
      if TrueDivision.RoundsUp d.epochMicros.toNat 1000000 then 1 else 0 := by
  have year9999 : d.epochMicros < 315537897600000000 := by
    have := d.isLt
    unfold epochMicros
    omega
  obtain ⟨n, same⟩ := Int.eq_ofNat_of_zero_le since1970
  rw [same] at year9999
  rw [wholeTimestamp, if_pos since1970, same, Int.toNat_natCast,
    TrueDivision.wholePart_eq (by decide) (by omega)]
  split_ifs <;> omega

class Libraries where
  /-- `hashlib.sha256(data).digest()`. -/
  sha256 : Bytes → Bytes
  /-- `rfc8785.dumps(obj)`. `none` is a `CanonicalizationError`. -/
  canonicalize : PyValue → Option Bytes
  /-- Does `Ed25519PublicKey.from_public_bytes(key).verify(signature, data)` return, for
  32 bytes? Otherwise it raises `InvalidSignature`. -/
  ed25519Verify : (publicKey signature data : Bytes) → Bool
  /-- `datetime.fromisoformat(value)`. `none` is a `ValueError`. -/
  fromisoformat : PyStr → Option Datetime
  /-- `datetime.strptime(value, "%Y-%m-%dT%H:%M:%SZ")`, in UTC. `none` is a `ValueError`. -/
  strptime : PyStr → Option UtcDatetime
  repr : PyValue → PyStr
  /-- `chr.isspace()`, outside ASCII. -/
  isSpace : Char → Bool
  /-- `unicodedata.decimal(chr)`, outside ASCII. -/
  decimal : Char → Option (Fin 10)
  /-- Is there memory for a `bytes` object of this length? -/
  fitsMemory : Nat → Bool

/-- The libraries on ASCII texts that hold no date, where nothing is hashed or signed. -/
@[reducible] def Libraries.plain : Libraries where
  sha256 _ := []
  canonicalize _ := none
  ed25519Verify _ _ _ := false
  fromisoformat _ := none
  strptime _ := none
  repr
    | .str s => CodePoint.ofChar '\'' :: s ++ [CodePoint.ofChar '\'']
    | _ => []
  isSpace _ := false
  decimal _ := none
  fitsMemory n := n < 2 ^ 32

variable [Libraries]

/-- Does `bytes(n)` overflow? A count is a `Py_ssize_t`, and the object has a header of 33 bytes. -/
def overflowsCount (n : Int) : Bool := n < -2 ^ 63 || 2 ^ 63 - 33 ≤ n

/-- `bytes(v)`. An integer is a count of zero bytes. -/
def toBytes : PyValue → Raises Bytes
  | .arr items => items.mapM toByte
  | .obj [] => .ok []
  | .num (.int n) =>
    if overflowsCount n then .error .overflowError
    else if n < 0 then .error .valueError
    else if !Libraries.fitsMemory n.toNat then .error .memoryError
    else .ok (List.replicate n.toNat 0)
  | .bool b => .ok (List.replicate b.toNat 0)
  | _ => .error .typeError

def dumps (obj : PyValue) : Raises Bytes :=
  match Libraries.canonicalize obj with
  | some b => .ok b
  | none => .error .valueError

/-- `Ed25519PublicKey.from_public_bytes(key).verify(signature, data)`. -/
def ed25519Check (publicKey signature data : Bytes) : Raises Unit :=
  if Libraries.ed25519Verify publicKey signature data then .ok () else .error .invalidSignature

/-- `repr(s)` of a string. -/
def reprStr (s : PyStr) : PyStr := Libraries.repr (.str s)

/-- `str(v)`, as an f-string formats a value. -/
def format : PyValue → PyStr
  | .str s => s
  | v => Libraries.repr v

omit [Libraries] in
/-- Unpadded base64url, as a string. -/
def b64url (data : Bytes) : PyStr := (base64Url data).map CodePoint.ofChar

omit [Libraries] in
def hexdigest (digest : Bytes) : PyStr := py (lowerHex digest)

def isAsciiSpace (c : CodePoint) : Bool := (9 ≤ c.val && c.val ≤ 13) || c.val == 32

def isHexDigit (c : CodePoint) : Bool :=
  (48 ≤ c.val && c.val ≤ 57) || (65 ≤ c.val && c.val ≤ 70) || (97 ≤ c.val && c.val ≤ 102)

/-- `int` first turns decimal digits and white space outside ASCII into ASCII ones.
Anything else there becomes a character it refuses. -/
def foldAscii (c : CodePoint) : CodePoint :=
  if c.val < 128 then c
  else match c.toChar? with
    | none => CodePoint.ofChar '?'
    | some char =>
      if Libraries.isSpace char then CodePoint.ofChar ' '
      else match Libraries.decimal char with
        | some d => Fin.ofNat 0x110000 (48 + d.val)
        | none => CodePoint.ofChar '?'

def dropSign : PyStr → PyStr
  | c :: s => if c = CodePoint.ofChar '+' ∨ c = CodePoint.ofChar '-' then s else c :: s
  | [] => []

/-- A leading `0x`, which one underscore may follow. -/
def dropHexPrefix : PyStr → PyStr
  | z :: x :: s =>
    if z = CodePoint.ofChar '0' ∧ (x = CodePoint.ofChar 'x' ∨ x = CodePoint.ofChar 'X') then
      match s with
      | c :: t => if c = CodePoint.ofChar '_' then t else s
      | [] => []
    else z :: x :: s
  | s => s

/-- Hexadecimal digits, with single underscores between them. -/
def isDigitRun : PyStr → Bool
  | [] => false
  | [c] => isHexDigit c
  | c :: d :: s =>
    isHexDigit c && if d = CodePoint.ofChar '_' then isDigitRun s else isDigitRun (d :: s)

/-- Does `int(text, 16)` return? -/
def isInt16 (text : PyStr) : Bool :=
  let digits := dropHexPrefix (dropSign ((text.map foldAscii).dropWhile isAsciiSpace))
  let run := digits.takeWhile (fun c => !isAsciiSpace c)
  isDigitRun run && (digits.drop run.length).all isAsciiSpace

/-- `text.replace(sub, "")`, with the rest of a match still to be skipped. -/
def removeFrom (sub : PyStr) : Nat → PyStr → PyStr
  | _, [] => []
  | 0, c :: text =>
    if sub.isPrefixOf (c :: text) then removeFrom sub (sub.length - 1) text
    else c :: removeFrom sub 0 text
  | skip + 1, _ :: text => removeFrom sub skip text

def isBrace (c : CodePoint) : Bool := c == CodePoint.ofChar '{' || c == CodePoint.ofChar '}'

/-- `text.strip("{}")`. -/
def stripBraces (text : PyStr) : PyStr :=
  ((text.dropWhile isBrace).reverse.dropWhile isBrace).reverse

/-- Does `uuid.UUID(text)` return? -/
def isUuidText (text : PyStr) : Bool :=
  let hex := removeFrom (py "-") 0
    (stripBraces (removeFrom (py "uuid:") 0 (removeFrom (py "urn:") 0 text)))
  hex.length == 32 && isInt16 hex

/-! ### A UUID text is Unicode text -/

omit [Libraries] in
theorem mem_dropWhile {p : CodePoint → Bool} {c : CodePoint} {s : PyStr} (member : c ∈ s)
    (kept : p c = false) : c ∈ s.dropWhile p := by
  induction s with
  | nil => cases member
  | cons b s ih =>
    rw [List.dropWhile_cons]
    split
    · rename_i dropped
      rcases List.mem_cons.mp member with rfl | member
      · rw [kept] at dropped
        cases dropped
      · exact ih member
    · exact member

omit [Libraries] in
theorem mem_removeFrom_drop {sub : PyStr} (nonempty : sub ≠ []) {c : CodePoint} (other : c ∉ sub)
    {skip : Nat} {text : PyStr} (member : c ∈ text.drop skip) : c ∈ removeFrom sub skip text := by
  induction text generalizing skip with
  | nil => simp at member
  | cons b text ih =>
    cases skip with
    | succ skip => exact ih member
    | zero =>
      unfold removeFrom
      split
      · rename_i found
        obtain ⟨rest, whole⟩ := List.isPrefixOf_iff_prefix.mp found
        rw [List.drop_zero, ← whole] at member
        have inRest : c ∈ rest := (List.mem_append.mp member).resolve_left other
        have dropped : text.drop (sub.length - 1) = rest := by
          obtain ⟨a, tail, rfl⟩ := List.exists_cons_of_ne_nil nonempty
          have same : tail ++ rest = text := (List.cons.inj whole).2
          rw [← same]
          exact List.drop_left
        exact ih (dropped ▸ inRest)
      · rcases List.mem_cons.mp member with rfl | member
        · exact List.mem_cons_self
        · exact List.mem_cons_of_mem _ (ih (by simpa using member))

omit [Libraries] in
theorem mem_removeFrom (sub : PyStr) (nonempty : sub ≠ []) {c : CodePoint} (other : c ∉ sub)
    {text : PyStr} (member : c ∈ text) : c ∈ removeFrom sub 0 text :=
  mem_removeFrom_drop nonempty other member

omit [Libraries] in
theorem mem_stripBraces {c : CodePoint} {text : PyStr} (member : c ∈ text)
    (kept : isBrace c = false) : c ∈ stripBraces text := by
  have front := mem_dropWhile member kept
  exact List.mem_reverse.mpr (mem_dropWhile (List.mem_reverse.mpr front) kept)

omit [Libraries] in
theorem isDigitRun_mem {s : PyStr} (run : isDigitRun s = true) :
    ∀ c ∈ s, isHexDigit c = true ∨ c = CodePoint.ofChar '_' := by
  fun_induction isDigitRun s with
  | case1 => cases run
  | case2 c =>
    intro b member
    rw [List.mem_singleton.mp member]
    exact .inl run
  | case3 c d s here there =>
    obtain ⟨first, rest⟩ := Bool.and_eq_true_iff.mp run
    intro b member
    rcases List.mem_cons.mp member with rfl | member
    · exact .inl first
    · split at rest
      · rename_i underscore
        rcases List.mem_cons.mp member with rfl | member
        · exact .inr underscore
        · exact here rest b member
      · exact there rest b member

omit [Libraries] in
theorem mem_dropSign {c : CodePoint} {s : PyStr} (member : c ∈ s) (plus : c ≠ CodePoint.ofChar '+')
    (minus : c ≠ CodePoint.ofChar '-') : c ∈ dropSign s := by
  cases s with
  | nil => cases member
  | cons b s =>
    rw [dropSign]
    split
    · rename_i sign
      rcases List.mem_cons.mp member with rfl | member
      · exact absurd sign (by simp [plus, minus])
      · exact member
    · exact member

omit [Libraries] in
theorem mem_dropHexPrefix {c : CodePoint} {s : PyStr} (member : c ∈ s)
    (zero : c ≠ CodePoint.ofChar '0') (lower : c ≠ CodePoint.ofChar 'x')
    (upper : c ≠ CodePoint.ofChar 'X') (underscore : c ≠ CodePoint.ofChar '_') :
    c ∈ dropHexPrefix s := by
  unfold dropHexPrefix
  split
  · rename_i z x s
    split
    · rename_i marked
      have other : c ≠ z ∧ c ≠ x := by
        constructor
        · rintro rfl
          exact zero marked.1
        · rintro rfl
          exact marked.2.elim lower upper
      have member : c ∈ s := by simpa [other.1, other.2] using member
      split
      · split
        · rename_i same
          rcases List.mem_cons.mp member with rfl | member
          · exact absurd same underscore
          · exact member
        · exact member
      · exact member
    · exact member
  · exact member

theorem not_mem_of_isInt16 {text : PyStr} (reads : isInt16 text = true) :
    CodePoint.ofChar '?' ∉ text.map foldAscii := by
  intro member
  obtain ⟨run, trailing⟩ := Bool.and_eq_true_iff.mp reads
  have unspaced : isAsciiSpace (CodePoint.ofChar '?') = false := by decide
  have inDigits := mem_dropHexPrefix
    (mem_dropSign (mem_dropWhile member unspaced) (by decide) (by decide))
    (by decide) (by decide) (by decide) (by decide)
  have whole := List.prefix_iff_eq_append.mp (List.takeWhile_prefix (fun c => !isAsciiSpace c)
    (l := dropHexPrefix (dropSign ((text.map foldAscii).dropWhile isAsciiSpace))))
  rcases List.mem_append.mp (whole.symm ▸ inDigits) with inRun | inTrailing
  · exact absurd (isDigitRun_mem run _ inRun) (by decide)
  · have space := List.all_eq_true.mp trailing _ inTrailing
    rw [unspaced] at space
    cases space

theorem foldAscii_surrogate {c : CodePoint} (surrogate : c.toChar? = none) :
    foldAscii c = CodePoint.ofChar '?' := by
  have high : ¬ c.val < 128 := by
    intro low
    have valid : c.val.isValidChar := .inl (by omega)
    rw [CodePoint.toChar?, dif_pos valid] at surrogate
    cases surrogate
  rw [foldAscii, if_neg high, surrogate]

theorem encodable_of_isUuidText {text : PyStr} (reads : isUuidText text = true) :
    Encodable text := by
  intro c member
  by_contra none_
  have surrogate : c.toChar? = none := Option.not_isSome_iff_eq_none.mp none_
  have other : ∀ b : CodePoint, b.toChar?.isSome = true → c ≠ b := by
    rintro b some_ rfl
    exact none_ some_
  have fresh : ∀ sub : PyStr, sub.all (fun b => b.toChar?.isSome) = true → c ∉ sub :=
    fun sub all_ inSub => none_ (List.all_eq_true.mp all_ c inSub)
  have unbraced : isBrace c = false := by
    simp only [isBrace, Bool.or_eq_false_iff, beq_eq_false_iff_ne]
    exact ⟨other _ (by decide), other _ (by decide)⟩
  have inHex := mem_removeFrom (py "-") (by decide) (fresh _ (by decide))
    (mem_stripBraces (mem_removeFrom (py "uuid:") (by decide) (fresh _ (by decide))
      (mem_removeFrom (py "urn:") (by decide) (fresh _ (by decide)) member)) unbraced)
  refine not_mem_of_isInt16 (Bool.and_eq_true_iff.mp reads).2 ?_
  exact List.mem_map.mpr ⟨c, inHex, foldAscii_surrogate surrogate⟩

end VaidSuite.Python
