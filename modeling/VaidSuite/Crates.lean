import Mathlib.Order.Lex
import Mathlib.Data.Prod.Lex
import Mathlib.Order.Defs.LinearOrder
import VaidSuite.Json

/-! The third-party code the crates call: ring, sha2, serde_jcs and chrono.
Cryptography and the conversion of timestamps to and from text are parameters.
Instants and their arithmetic are modelled. -/
namespace VaidSuite

/-- A `DateTime<Utc>`. `nanos` reaches past a second only inside a leap second. -/
structure Instant where
  secs : Int
  nanos : Nat
  deriving DecidableEq, Repr

namespace Instant

def toPair (i : Instant) : Int ×ₗ Nat := toLex (i.secs, i.nanos)

theorem toPair_injective : Function.Injective toPair := by
  rintro ⟨s, n⟩ ⟨s', n'⟩ h
  cases toLex.injective h
  rfl

instance : LinearOrder Instant := LinearOrder.lift' toPair toPair_injective

def truncSubsecs (i : Instant) : Instant := ⟨i.secs, i.nanos - i.nanos % 1000000000⟩

/-- `(self - rhs).num_seconds()`, with chrono's leap-second adjustment. -/
def secondsSince (self rhs : Instant) : Int :=
  let time := self.secs % 86400
  let rhsTime := rhs.secs % 86400
  let leap :=
    if rhsTime < time then if 1000000000 ≤ rhs.nanos then 1 else 0
    else if time < rhsTime then if 1000000000 ≤ self.nanos then -1 else 0
    else 0
  ((self.secs - rhs.secs + leap) * 1000000000 + (self.nanos - rhs.nanos : Int)).tdiv 1000000000

/-- `self + Duration::seconds(seconds)`; `none` is the documented panic, of a sum
past `MIN_UTC` or `MAX_UTC`. Leaving a leap second drops it. -/
def addSeconds (self : Instant) (seconds : Int) : Option Instant :=
  let leaving := 1000000000 ≤ self.nanos ∧ seconds ≠ 0
  let sum := self.secs + seconds + (if leaving ∧ seconds < 0 then 1 else 0)
  if sum < -8334601228800 ∨ 8210266876799 < sum then none
  else some ⟨sum, if leaving then self.nanos - 1000000000 else self.nanos⟩

/-- `self + Duration::hours(hours)`, which also panics on a duration past
`i64::MAX` milliseconds. -/
def addHours (self : Instant) (hours : Int) : Option Instant :=
  if hours * 3600 < -9223372036854775 ∨ 9223372036854775 < hours * 3600 then none
  else self.addSeconds (hours * 3600)

end Instant

/-- chrono's text conversions of a `DateTime<Utc>`. -/
class Chrono where
  /-- `DateTime::parse_from_rfc3339(value).ok()`, in UTC. -/
  parseFromRfc3339 : String → Option Instant
  /-- `format("%Y-%m-%dT%H:%M:%SZ")`. -/
  formatWholeSecond : Instant → String
  /-- The text `Serialize` writes. -/
  serialize : Instant → String

/-- A `ring` Ed25519 key pair, by its private seed. -/
structure Ed25519KeyPair where
  seed : Bytes
  deriving DecidableEq

class Crypto where
  sha256 : Bytes → Bytes
  /-- `serde_jcs::to_vec`, RFC 8785. -/
  jcs : Json String → Bytes
  publicKey : Ed25519KeyPair → Bytes
  sign : Ed25519KeyPair → Bytes → Bytes
  /-- `UnparsedPublicKey::new(&ED25519, publicKey).verify(message, signature).is_ok()`. -/
  ed25519Verify : (publicKey message signature : Bytes) → Bool

/-- A signature made by a key pair verifies under its public key. -/
def Crypto.SignaturesVerify [Crypto] : Prop :=
  ∀ (kp : Ed25519KeyPair) (message : Bytes),
    ed25519Verify (publicKey kp) message (sign kp message) = true

def utf8 (s : String) : Bytes := s.toList.flatMap String.utf8EncodeChar

mutual

/-- The compact text of a value, for texts with nothing to escape. -/
def Json.compact : Json String → List Char
  | .null => "null".toList
  | .bool b => (if b then "true" else "false").toList
  | .num (.int n) => (toString n).toList
  | .num (.float bits) => (toString bits.toNat).toList
  | .str s => '"' :: s.toList ++ ['"']
  | .arr items => '[' :: Json.compactItems items ++ [']']
  | .obj members => '{' :: Json.compactMembers members ++ ['}']

def Json.compactItems : List (Json String) → List Char
  | [] => []
  | [j] => j.compact
  | j :: items => j.compact ++ ',' :: Json.compactItems items

def Json.compactMembers : List (String × Json String) → List Char
  | [] => []
  | [(k, j)] => '"' :: k.toList ++ '"' :: ':' :: j.compact
  | (k, j) :: members =>
    '"' :: k.toList ++ '"' :: ':' :: (j.compact ++ ',' :: Json.compactMembers members)

end

@[reducible] def Crypto.standIn : Crypto where
  sha256 := id
  jcs j := utf8 (String.ofList j.compact)
  publicKey kp := kp.seed
  sign kp message := kp.seed ++ message
  ed25519Verify publicKey message signature := signature == publicKey ++ message

theorem Crypto.standIn_signaturesVerify : @Crypto.SignaturesVerify Crypto.standIn :=
  fun _ _ => beq_self_eq_true _

/-- chrono on a list of whole seconds and their texts. -/
@[reducible] def Chrono.table (entries : List (Int × String)) : Chrono where
  parseFromRfc3339 s := (entries.find? (fun e => e.2 == s)).map (fun e => ⟨e.1, 0⟩)
  formatWholeSecond i := ((entries.find? (fun e => e.1 == i.secs)).map (·.2)).getD ""
  serialize i := ((entries.find? (fun e => e.1 == i.secs)).map (·.2)).getD ""

end VaidSuite
