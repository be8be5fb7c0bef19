import VaidSuite.HostReadings

/-! Trust domains over the code units of the three implementations. -/

namespace VaidSuite

open Containment (Coding Reserved)
open Python (py CodePoint)
open TypeScript (js utf16)

theorem utf8ByteSize_eq (cs : List Char) :
    (String.ofList cs).utf8ByteSize = (cs.flatMap String.utf8EncodeChar).length :=
  List.size_toByteArray

theorem utf8Length_chars (cs : List Char) : Python.utf8Length (cs.map CodePoint.ofChar) =
    (cs.flatMap String.utf8EncodeChar).length := by
  have one : ∀ c : Char, (if (CodePoint.ofChar c).val < 0x80 then 1
      else if (CodePoint.ofChar c).val < 0x800 then 2
      else if (CodePoint.ofChar c).val < 0x10000 then 3 else 4) = (String.utf8EncodeChar c).length := by
    intro c
    have valid : c.toNat < 0xd800 ∨ 0xdfff < c.toNat ∧ c.toNat < 0x110000 := c.valid
    have value : (CodePoint.ofChar c).val = c.toNat := Nat.mod_eq_of_lt (by omega)
    have units := congrArg List.length (utf8Code_toNat c)
    rw [List.length_map, utf8Code] at units
    rw [← units, value]
    split_ifs <;> first | rfl | omega
  induction cs with
  | nil => rfl
  | cons c cs ih =>
    rw [List.flatMap_cons, List.length_append, ← ih, ← one]
    rfl

theorem encode_chars (cs : List Char) :
    TypeScript.encode (cs.flatMap utf16) = cs.flatMap String.utf8EncodeChar := by
  induction cs with
  | nil => rfl
  | cons c cs ih => rw [List.flatMap_cons, TypeScript.encode_utf16, ih, List.flatMap_cons]

/-- A lowercase letter, a digit or a hyphen, by its code. -/
def isLabelCode (n : Nat) : Bool := (97 ≤ n && n ≤ 122) || (48 ≤ n && n ≤ 57) || n == 45

def isDigitCode (n : Nat) : Bool := 48 ≤ n && n ≤ 57

section Codes

variable {code : Nat → Bool} (ascii : ∀ n, 0x80 ≤ n → code n = false)

theorem all_flatMap {γ : Type} {enc : Char → List γ} {unit : γ → Bool}
    (each : ∀ c, (enc c).all unit = code c.toNat) (cs : List Char) :
    (cs.flatMap enc).all unit = cs.all (fun c => code c.toNat) := by
  induction cs with
  | nil => rfl
  | cons c cs ih => rw [List.flatMap_cons, List.all_append, ih, each, List.all_cons]

theorem all_codePoint (c : Char) : [CodePoint.ofChar c].all (fun p => code p.val) = code c.toNat := by
  have valid : c.toNat < 0xd800 ∨ 0xdfff < c.toNat ∧ c.toNat < 0x110000 := c.valid
  have value : (CodePoint.ofChar c).val = c.toNat := Nat.mod_eq_of_lt (by omega)
  rw [List.all_cons, value, List.all_nil, Bool.and_true]

include ascii in
theorem all_utf16 (c : Char) : (utf16 c).all (fun u => code u.val) = code c.toNat := by
  have valid : c.toNat < 0xd800 ∨ 0xdfff < c.toNat ∧ c.toNat < 0x110000 := c.valid
  unfold utf16
  split_ifs with basic
  · rw [List.all_cons, Fin.val_ofNat, Nat.mod_eq_of_lt basic, List.all_nil, Bool.and_true]
  · rw [List.all_cons, Fin.val_ofNat, ascii _ (by omega), ascii c.toNat (by omega), Bool.false_and]

end Codes

theorem isLabelCode_ascii (n : Nat) (high : 0x80 ≤ n) : isLabelCode n = false := by
  simp [isLabelCode]
  omega

theorem isDigitCode_ascii (n : Nat) (high : 0x80 ≤ n) : isDigitCode n = false := by
  simp [isDigitCode]
  omega

theorem labelChar_eq (c : Char) :
    (('a' ≤ c && c ≤ 'z') || ('0' ≤ c && c ≤ '9') || c == '-') = isLabelCode c.toNat := by
  have hyphen : (c == '-') = (c.toNat == 45) := by
    rw [beq_eq_decide, beq_eq_decide]
    exact decide_eq_decide.mpr Char.toNat_inj.symm
  rw [hyphen]
  rfl

section Ends

variable {γ : Type} [DecidableEq γ] {enc : Char → List γ} (coding : Coding enc)

include coding

omit [DecidableEq γ] in
theorem isEmpty_flatMap (cs : List Char) : (cs.flatMap enc).isEmpty = cs.isEmpty := by
  rw [Bool.eq_iff_iff, List.isEmpty_iff, List.isEmpty_iff]
  exact coding.flatMap_inj cs []

theorem head?_bne {a : Char} {u : γ} (reserved : Reserved enc a u) (cs : List Char) :
    ((cs.flatMap enc).head? != some u) = (cs.head? != some a) := by
  rw [Bool.eq_iff_iff, bne_iff_ne, bne_iff_ne]
  exact not_congr (Containment.head?_flatMap coding.spelled reserved cs)

theorem getLast?_bne {a : Char} {u : γ} (reserved : Reserved enc a u) (cs : List Char) :
    ((cs.flatMap enc).getLast? != some u) = (cs.getLast? != some a) := by
  rw [Bool.eq_iff_iff, bne_iff_ne, bne_iff_ne]
  refine not_congr ?_
  rw [← List.singleton_suffix_iff_getLast?_eq_some, ← List.singleton_suffix_iff_getLast?_eq_some]
  exact coding.isSuffix_iff reserved cs

end Ends

theorem isTrustDomainLabel_py (label : List Char) :
    Python.isTrustDomainLabel (label.flatMap (fun c => [CodePoint.ofChar c])) =
      isTrustDomainLabel label := by
  have dash := codePoint_reserved '-'
  have size : Python.utf8Length (label.flatMap (fun c => [CodePoint.ofChar c])) =
      (String.ofList label).utf8ByteSize := by
    rw [utf8ByteSize_eq, ← utf8Length_chars, List.map_eq_flatMap]
  have codes : (label.flatMap (fun c => [CodePoint.ofChar c])).all
      (fun ch => Python.isLowerOrDigit ch || ch == CodePoint.ofChar '-') =
        label.all (fun c => ('a' ≤ c && c ≤ 'z') || ('0' ≤ c && c ≤ '9') || c == '-') := by
    have units : (fun ch : CodePoint => Python.isLowerOrDigit ch || ch == CodePoint.ofChar '-') =
        fun ch => isLabelCode ch.val := by
      funext ch
      have hyphen : (ch == CodePoint.ofChar '-') = (ch.val == 45) := by
        rw [beq_eq_decide, beq_eq_decide]
        exact decide_eq_decide.mpr Fin.ext_iff
      rw [hyphen]
      rfl
    rw [units, all_flatMap all_codePoint]
    exact congrArg label.all (funext (fun c => (labelChar_eq c).symm))
  rw [Python.isTrustDomainLabel, isTrustDomainLabel, size, codes, isEmpty_flatMap codePoint_coding,
    head?_bne codePoint_coding dash, getLast?_bne codePoint_coding dash]

theorem isTrustDomainLabel_js (label : List Char) :
    TypeScript.isTrustDomainLabel (label.flatMap utf16) = isTrustDomainLabel label := by
  have dash := utf16_reserved (a := '-') (by decide)
  have size : (TypeScript.encode (label.flatMap utf16)).length = (String.ofList label).utf8ByteSize := by
    rw [utf8ByteSize_eq, encode_chars]
  have codes : (label.flatMap utf16).all
      (fun ch => TypeScript.isLowerOrDigit ch || [ch] == js "-") =
        label.all (fun c => ('a' ≤ c && c ≤ 'z') || ('0' ≤ c && c ≤ '9') || c == '-') := by
    have units : (fun ch : TypeScript.CodeUnit => TypeScript.isLowerOrDigit ch || [ch] == js "-") =
        fun ch => isLabelCode ch.val := by
      funext ch
      have hyphen : ([ch] == js "-") = (ch.val == 45) := by
        rw [beq_eq_decide, beq_eq_decide]
        refine decide_eq_decide.mpr ?_
        rw [show js "-" = [(45 : TypeScript.CodeUnit)] from rfl, List.singleton_inj]
        exact Fin.ext_iff
      rw [hyphen]
      rfl
    rw [units, all_flatMap (all_utf16 isLabelCode_ascii)]
    exact congrArg label.all (funext (fun c => (labelChar_eq c).symm))
  have starts : (!(js "-").isPrefixOf (label.flatMap utf16)) = (label.head? != some '-') := by
    rw [← head?_bne utf16_coding dash]
    cases label.flatMap utf16 with
    | nil => rfl
    | cons u us => simp [js, dash.unit, List.isPrefixOf, bne, eq_comm]
  have ends : (!(js "-").isSuffixOf (label.flatMap utf16)) = (label.getLast? != some '-') := by
    have hyphen : js "-" = [Fin.ofNat 0x10000 '-'.toNat] := rfl
    rw [← getLast?_bne utf16_coding dash, Bool.eq_iff_iff, bne_iff_ne, Bool.not_eq_true',
      ← Bool.not_eq_true, List.isSuffixOf_iff_suffix, hyphen, List.singleton_suffix_iff_getLast?_eq_some]
  rw [TypeScript.isTrustDomainLabel, isTrustDomainLabel, size, codes, isEmpty_flatMap utf16_coding,
    starts, ends]

theorem getLastD_map {α β : Type} {f : List α → List β} (empty : f [] = []) (labels : List (List α)) :
    (labels.map f).getLastD [] = f (labels.getLastD []) := by
  rw [List.getLastD_eq_getLast?, List.getLastD_eq_getLast?, List.getLast?_map]
  cases labels.getLast? with
  | none => exact empty.symm
  | some label => rfl

theorem isTrustDomain_py (s : String) :
    (!(py s).isEmpty && Python.isTrustDomain (py s)) = isValidTrustDomain s := by
  have size : Python.utf8Length (py s) = s.utf8ByteSize := by
    rw [py, utf8Length_chars, ← utf8ByteSize_eq, String.ofList_toList]
  have labels : (py s).splitOn (CodePoint.ofChar '.') =
      (s.toList.splitOn '.').map (List.flatMap (fun c => [CodePoint.ofChar c])) := by
    rw [py_eq, Containment.splitOn_flatMap (codePoint_reserved '.')]
  have whole : ((s.toList.splitOn '.').map (List.flatMap (fun c => [CodePoint.ofChar c]))).all
      Python.isTrustDomainLabel = (s.toList.splitOn '.').all isTrustDomainLabel := by
    rw [List.all_map]
    exact congrArg (s.toList.splitOn '.').all (funext isTrustDomainLabel_py)
  have last : (((s.toList.splitOn '.').map (List.flatMap (fun c => [CodePoint.ofChar c]))).getLastD []).all
      (fun ch => 48 ≤ ch.val && ch.val ≤ 57) =
        ((s.toList.splitOn '.').getLastD []).all (fun c => '0' ≤ c && c ≤ '9') := by
    rw [getLastD_map List.flatMap_nil]
    have digit : ∀ c : Char, [CodePoint.ofChar c].all (fun ch => isDigitCode ch.val) =
        isDigitCode c.toNat := all_codePoint
    exact all_flatMap digit _
  have empty : (py s).isEmpty = s.isEmpty := by
    rw [py_eq, isEmpty_flatMap codePoint_coding, Bool.eq_iff_iff, List.isEmpty_iff, String.isEmpty_iff,
      String.toList_eq_nil_iff]
  simp only [Python.isTrustDomain, isValidTrustDomain, size, labels, whole, last, empty,
    List.length_map, Bool.and_assoc]

theorem isTrustDomain_js (s : String) :
    (!(js s).isEmpty && TypeScript.isTrustDomain (js s)) = isValidTrustDomain s := by
  have size : (TypeScript.encode (js s)).length = s.utf8ByteSize := by
    rw [js, encode_chars, ← utf8ByteSize_eq, String.ofList_toList]
  have labels : (js s).splitOn (Fin.ofNat 0x10000 '.'.toNat) =
      (s.toList.splitOn '.').map (List.flatMap utf16) :=
    Containment.splitOn_flatMap (utf16_reserved (a := '.') (by decide)) _
  have whole : ((s.toList.splitOn '.').map (List.flatMap utf16)).all TypeScript.isTrustDomainLabel =
      (s.toList.splitOn '.').all isTrustDomainLabel := by
    rw [List.all_map]
    exact congrArg (s.toList.splitOn '.').all (funext isTrustDomainLabel_js)
  have last : (((s.toList.splitOn '.').map (List.flatMap utf16)).getLastD []).all
      (fun ch => 48 ≤ ch.val && ch.val ≤ 57) =
        ((s.toList.splitOn '.').getLastD []).all (fun c => '0' ≤ c && c ≤ '9') := by
    rw [getLastD_map List.flatMap_nil]
    exact all_flatMap (all_utf16 isDigitCode_ascii) _
  have empty : (js s).isEmpty = s.isEmpty := by
    rw [js, isEmpty_flatMap utf16_coding, Bool.eq_iff_iff, List.isEmpty_iff, String.isEmpty_iff,
      String.toList_eq_nil_iff]
  simp only [TypeScript.isTrustDomain, isValidTrustDomain, size, labels, whole, last, empty,
    List.length_map, Bool.and_assoc]

end VaidSuite
