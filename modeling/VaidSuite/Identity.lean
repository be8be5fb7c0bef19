import Mathlib.Algebra.Order.Ring.Nat
import Mathlib.Data.List.FinRange
import VaidSuite.Crates

/-! The identity newtypes, UUID spellings, and the two issuer-identity values:
the trust domain and the kernel key thumbprint. -/
namespace VaidSuite

structure Uuid where
  digits : List (Fin 16)
  length_eq : digits.length = 32
  deriving DecidableEq

namespace Uuid

def hexDigit (d : Fin 16) : Char := Nat.digitChar d.val

/-- A hexadecimal digit, in either letter case. -/
def hexValue (c : Char) : Option (Fin 16) :=
  (List.finRange 16).find? (fun d => hexDigit d == c.toLower)

theorem hexValue_hexDigit : ∀ d : Fin 16, hexValue (hexDigit d) = some d := by decide

def ofDigits (digits : List (Fin 16)) : Option Uuid :=
  if h : digits.length = 32 then some ⟨digits, h⟩ else none

/-- The lowercase hyphenated form, `8-4-4-4-12`. -/
def hyphenated (u : Uuid) : List Char :=
  let cs := u.digits.map hexDigit
  cs.take 8 ++ '-' :: ((cs.drop 8).take 4 ++ '-' :: ((cs.drop 12).take 4 ++
    '-' :: ((cs.drop 16).take 4 ++ '-' :: cs.drop 20)))

def toString (u : Uuid) : String := String.ofList u.hyphenated

instance : ToString Uuid := ⟨toString⟩

def parseSimple (cs : List Char) : Option Uuid :=
  (cs.mapM hexValue).bind ofDigits

def parseHyphenated (cs : List Char) : Option Uuid :=
  if cs[8]? = some '-' ∧ cs[13]? = some '-' ∧ cs[18]? = some '-' ∧ cs[23]? = some '-' then
    parseSimple (cs.take 8 ++ (cs.drop 9).take 4 ++ (cs.drop 14).take 4 ++
      (cs.drop 19).take 4 ++ cs.drop 24)
  else none

def stripBraces (cs : List Char) : Option (List Char) :=
  if cs.head? = some '{' ∧ cs.getLast? = some '}' then some cs.tail.dropLast else none

/-- `Uuid::parse_str`: the simple, hyphenated, braced and URN spellings, in
either letter case. Anything else is refused. -/
def parseStr (s : String) : Option Uuid :=
  let cs := s.toList
  if cs.length = 32 then parseSimple cs
  else if cs.length = 36 then parseHyphenated cs
  else if cs.length = 38 then (stripBraces cs).bind parseHyphenated
  else if cs.length = 45 ∧ cs.take 9 = "urn:uuid:".toList then parseHyphenated (cs.drop 9)
  else none

theorem mapM_hexValue (ds : List (Fin 16)) :
    (ds.map hexDigit).mapM hexValue = some ds := by
  induction ds with
  | nil => rfl
  | cons d ds ih =>
    rw [List.map_cons, List.mapM_cons, hexValue_hexDigit, ih]
    rfl

theorem parseSimple_digits (u : Uuid) :
    parseSimple (u.digits.map hexDigit) = some u := by
  rw [parseSimple, mapM_hexValue]
  exact dif_pos u.length_eq

theorem ungroup {α : Type} (cs : List α) (sep : α) (h : cs.length = 32) :
    let g := cs.take 8 ++ sep :: ((cs.drop 8).take 4 ++ sep :: ((cs.drop 12).take 4 ++
      sep :: ((cs.drop 16).take 4 ++ sep :: cs.drop 20)))
    g.length = 36 ∧ g[8]? = some sep ∧ g[13]? = some sep ∧ g[18]? = some sep ∧ g[23]? = some sep ∧
      g.take 8 ++ (g.drop 9).take 4 ++ (g.drop 14).take 4 ++ (g.drop 19).take 4 ++ g.drop 24 = cs := by
  match cs, h with
  | [a0, a1, a2, a3, a4, a5, a6, a7, b0, b1, b2, b3, c0, c1, c2, c3, d0, d1, d2, d3,
      e0, e1, e2, e3, e4, e5, e6, e7, e8, e9, e10, e11], _ =>
    exact ⟨rfl, rfl, rfl, rfl, rfl, rfl⟩

theorem parseStr_toString (u : Uuid) : parseStr u.toString = some u := by
  have g := ungroup (u.digits.map hexDigit) '-' (by simp [u.length_eq])
  have len : u.hyphenated.length = 36 := g.1
  have inner : parseHyphenated u.hyphenated = some u := by
    rw [parseHyphenated, if_pos ⟨g.2.1, g.2.2.1, g.2.2.2.1, g.2.2.2.2.1⟩]
    exact (congrArg parseSimple g.2.2.2.2.2).trans (parseSimple_digits u)
  simp only [parseStr, toString, String.toList_ofList, len]
  exact inner

instance neZero_hexDigits : NeZero 16 := ⟨Nat.succ_ne_zero 15⟩

/-- The `count` lowest hexadecimal digits of a number, highest first. -/
def lowDigits : Nat → Nat → List (Fin 16)
  | 0, _ => []
  | count + 1, n => lowDigits count (n / 16) ++ [Fin.ofNat 16 n]

theorem length_lowDigits (count n : Nat) : (lowDigits count n).length = count := by
  induction count generalizing n with
  | zero => rfl
  | succ count ih => simp [lowDigits, ih]

theorem lowDigits_injective (count : Nat) {m n : Nat} (hm : m < 16 ^ count) (hn : n < 16 ^ count)
    (same : lowDigits count m = lowDigits count n) : m = n := by
  induction count generalizing m n with
  | zero => omega
  | succ count ih =>
    obtain ⟨high, low⟩ := List.append_inj' same rfl
    rw [Nat.pow_succ] at hm hn
    have quotient : m / 16 = n / 16 :=
      ih (Nat.div_lt_of_lt_mul (by omega)) (Nat.div_lt_of_lt_mul (by omega)) high
    have remainder : m % 16 = n % 16 := by simpa [Fin.ofNat] using low
    omega

def fromU128 (n : Nat) : Uuid := ⟨lowDigits 32 n, length_lowDigits 32 n⟩

theorem fromU128_injective {m n : Nat} (hm : m < 16 ^ 32) (hn : n < 16 ^ 32)
    (same : fromU128 m = fromU128 n) : m = n := by
  unfold fromU128 at same
  exact lowDigits_injective 32 hm hn (Uuid.mk.inj same)

end Uuid

structure VaidId where
  uuid : Uuid
  deriving DecidableEq

instance : ToString VaidId := ⟨fun v => toString v.uuid⟩

structure AgentId where
  uuid : Uuid
  deriving DecidableEq

instance : ToString AgentId := ⟨fun a => toString a.uuid⟩

structure AgentClass where
  asStr : String
  deriving DecidableEq

structure TenantId where
  asStr : String
  deriving DecidableEq

/-- A UUID-valued member, kept exactly as presented beside the value it denotes. -/
structure PresentedUuid where
  asPresented : String
  uuid : Uuid
  denotes : Uuid.parseStr asPresented = some uuid
  deriving DecidableEq

/-- The mint's path: the canonical spelling by construction. -/
def PresentedUuid.ofUuid (u : Uuid) : PresentedUuid :=
  ⟨u.toString, u, Uuid.parseStr_toString u⟩

def base64UrlAlphabet : List Char :=
  "ABCDEFGHIJKLMNOPQRSTUVWXYZabcdefghijklmnopqrstuvwxyz0123456789-_".toList

def sextet (n : Nat) : Char := base64UrlAlphabet.getD (n % 64) 'A'

/-- Unpadded base64url (`URL_SAFE_NO_PAD.encode`). -/
def base64Url : Bytes → List Char
  | [] => []
  | [a] => [sextet (a.toNat / 4), sextet (a.toNat * 16)]
  | [a, b] =>
    [sextet (a.toNat / 4), sextet (a.toNat * 16 + b.toNat / 16), sextet (b.toNat * 4)]
  | a :: b :: c :: rest =>
    sextet (a.toNat / 4) :: sextet (a.toNat % 4 * 16 + b.toNat / 16) ::
      sextet (b.toNat % 16 * 4 + c.toNat / 64) :: sextet c.toNat :: base64Url rest

/-- The bytes of a list of sextets. Bits past the last whole byte are dropped. -/
def decodeSextets : List Nat → Bytes
  | a :: b :: c :: d :: rest =>
    UInt8.ofNat (a * 4 + b / 16) :: UInt8.ofNat (b % 16 * 16 + c / 4) ::
      UInt8.ofNat (c % 4 * 64 + d) :: decodeSextets rest
  | [a, b, c] => [UInt8.ofNat (a * 4 + b / 16), UInt8.ofNat (b % 16 * 16 + c / 4)]
  | [a, b] => [UInt8.ofNat (a * 4 + b / 16)]
  | _ => []

/-- `format!("{:x}", digest)`. -/
def lowerHex (b : Bytes) : String :=
  String.ofList (b.flatMap (fun x => [Nat.digitChar (x.toNat / 16), Nat.digitChar (x.toNat % 16)]))

theorem lowerHex_injective : Function.Injective lowerHex := by
  have digits : ∀ m < 16, ∀ n < 16, Nat.digitChar m = Nat.digitChar n → m = n := by decide
  intro b b' same
  have chars := String.ofList_injective same
  clear same
  induction b generalizing b' with
  | nil =>
    cases b' with
    | nil => rfl
    | cons y b' => simp at chars
  | cons x b ih =>
    cases b' with
    | nil => simp at chars
    | cons y b' =>
      simp only [List.flatMap_cons, List.cons_append, List.nil_append, List.cons.injEq] at chars
      have := x.toNat_lt
      have := y.toNat_lt
      have high := digits _ (by omega) _ (by omega) chars.1
      have low := digits _ (by omega) _ (by omega) chars.2.1
      have byte : x = y := UInt8.toNat_inj.mp (by omega)
      rw [byte, ih chars.2.2]

def thumbprintUriPrefix : String := "urn:ietf:params:oauth:jwk-thumbprint:sha-256:"

def trustDomainMaxLen : Nat := 253
def trustDomainMaxLabelLen : Nat := 63

/-- The RFC 9278 thumbprint URI of a raw Ed25519 public key. -/
def kernelKeyThumbprint [Crypto] (publicKey : Bytes) : String :=
  let jwk := Json.object
    [("crv", .str "Ed25519"), ("kty", .str "OKP"), ("x", .str (String.ofList (base64Url publicKey)))]
  thumbprintUriPrefix ++ String.ofList (base64Url (Crypto.sha256 (Crypto.jcs jwk)))

def isTrustDomainLabel (label : List Char) : Bool :=
  !label.isEmpty && decide ((String.ofList label).utf8ByteSize ≤ trustDomainMaxLabelLen) &&
    label.head? != some '-' && label.getLast? != some '-' &&
    label.all (fun c => ('a' ≤ c && c ≤ 'z') || ('0' ≤ c && c ≤ '9') || c == '-')

/-- Is `s` a well-formed trust domain: at least two well-formed labels, the last
one not all digits? -/
def isValidTrustDomain (s : String) : Bool :=
  let labels := s.toList.splitOn '.'
  !s.isEmpty && decide (s.utf8ByteSize ≤ trustDomainMaxLen) && decide (2 ≤ labels.length) &&
    labels.all isTrustDomainLabel && !(labels.getLastD []).all (fun c => '0' ≤ c && c ≤ '9')

/-- A trust domain an issuer may be constructed with. -/
def TrustDomain := { s : String // isValidTrustDomain s = true }

theorem isValidTrustDomain_example : isValidTrustDomain "vaid.example" = true := by decide

end VaidSuite
