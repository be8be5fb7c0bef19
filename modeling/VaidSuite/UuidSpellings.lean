import VaidSuite.HostValues

/-! The spelling in which the mint writes an id reads as a UUID in every host. -/
namespace VaidSuite

namespace Python

theorem removeFrom_absent {first : CodePoint} (sub : PyStr) {text : PyStr} (absent : first ∉ text) :
    removeFrom (first :: sub) 0 text = text := by
  induction text with
  | nil => rfl
  | cons c text ih =>
    rw [List.mem_cons, not_or] at absent
    have differs : (first :: sub).isPrefixOf (c :: text) = false := by
      rw [List.isPrefixOf_cons_cons, beq_eq_false_iff_ne.mpr absent.1, Bool.false_and]
    rw [removeFrom, differs, ih absent.2]
    rfl

theorem removeFrom_singleton (c : CodePoint) (text : PyStr) :
    removeFrom [c] 0 text = text.filter (· != c) := by
  induction text with
  | nil => rfl
  | cons d text ih =>
    have same : [c].isPrefixOf (d :: text) = (c == d) := by
      rw [List.isPrefixOf_cons_cons, List.isPrefixOf_nil_left, Bool.and_true]
    rw [removeFrom, same, List.filter_cons, bne, Bool.beq_comm]
    cases h : d == c with
    | false => exact congrArg (d :: ·) ih
    | true => exact ih

theorem stripBraces_absent {text : PyStr} (absent : ∀ c ∈ text, isBrace c = false) :
    stripBraces text = text := by
  have kept : ∀ s : PyStr, (∀ c ∈ s, isBrace c = false) → s.dropWhile isBrace = s := by
    intro s clean
    cases s with
    | nil => rfl
    | cons c s => rw [List.dropWhile_cons, clean c List.mem_cons_self, if_neg (by simp)]
  rw [stripBraces, kept text absent,
    kept text.reverse (fun c member => absent c (List.mem_reverse.mp member)), List.reverse_reverse]

theorem isDigitRun_of_all {s : PyStr} (digits : ∀ c ∈ s, isHexDigit c = true) (nonempty : s ≠ []) :
    isDigitRun s = true := by
  induction s with
  | nil => exact absurd rfl nonempty
  | cons c s ih =>
    have here := digits c List.mem_cons_self
    cases s with
    | nil => exact here
    | cons d s =>
      have there := digits d (by simp)
      have plain : d ≠ CodePoint.ofChar '_' := by
        rintro rfl
        exact absurd there (by decide)
      rw [isDigitRun, here, if_neg plain, Bool.true_and]
      exact ih (fun e member => digits e (List.mem_cons_of_mem _ member)) (List.cons_ne_nil _ _)

section Libraries

variable [Libraries]

theorem isInt16_of_all {s : PyStr} (digits : ∀ c ∈ s, isHexDigit c = true) (nonempty : s ≠ []) :
    isInt16 s = true := by
  have range : ∀ c ∈ s, (48 ≤ c.val ∧ c.val ≤ 57) ∨ (65 ≤ c.val ∧ c.val ≤ 70) ∨
      (97 ≤ c.val ∧ c.val ≤ 102) := by
    intro c member
    simpa [isHexDigit, or_assoc] using digits c member
  have spaceless : ∀ c ∈ s, isAsciiSpace c = false := by
    intro c member
    have limits := range c member
    rw [isAsciiSpace, Bool.or_eq_false_iff, Bool.and_eq_false_iff, decide_eq_false_iff_not,
      decide_eq_false_iff_not, beq_eq_false_iff_ne]
    omega
  have folded : s.map foldAscii = s := by
    refine List.map_congr_left (fun c member => ?_) |>.trans (List.map_id s)
    have limits := range c member
    exact if_pos (by omega)
  have unsigned : dropSign s = s := by
    cases s with
    | nil => rfl
    | cons c s =>
      refine if_neg ?_
      rintro (rfl | rfl)
      · exact absurd (digits _ List.mem_cons_self) (by decide)
      · exact absurd (digits _ List.mem_cons_self) (by decide)
  have unprefixed : dropHexPrefix s = s := by
    cases s with
    | nil => rfl
    | cons z s =>
      cases s with
      | nil => rfl
      | cons x s =>
        refine if_neg ?_
        rintro ⟨-, rfl | rfl⟩
        · exact absurd (digits (CodePoint.ofChar 'x') (by simp)) (by decide)
        · exact absurd (digits (CodePoint.ofChar 'X') (by simp)) (by decide)
  have trimmed : s.dropWhile isAsciiSpace = s := by
    cases s with
    | nil => rfl
    | cons c s => rw [List.dropWhile_cons, spaceless c List.mem_cons_self, if_neg (by simp)]
  have run : s.takeWhile (fun c => !isAsciiSpace c) = s :=
    List.takeWhile_eq_self_iff.mpr (fun c member => by rw [spaceless c member, Bool.not_false])
  rw [isInt16, folded, trimmed, unsigned, unprefixed, run, isDigitRun_of_all digits nonempty,
    List.drop_length]
  rfl

end Libraries

end Python

namespace Uuid

theorem of_mem_hyphenated {u : Uuid} {c : Char} (member : c ∈ u.hyphenated) :
    c = '-' ∨ ∃ d, c = hexDigit d := by
  have digit : ∀ c ∈ u.digits.map hexDigit, c = '-' ∨ ∃ d, c = hexDigit d := by
    intro c member
    obtain ⟨d, -, rfl⟩ := List.mem_map.mp member
    exact .inr ⟨d, rfl⟩
  simp only [hyphenated, List.mem_append, List.mem_cons] at member
  rcases member with first | rfl | second | rfl | third | rfl | fourth | rfl | fifth
  · exact digit c (List.mem_of_mem_take first)
  · exact .inl rfl
  · exact digit c (List.mem_of_mem_drop (List.mem_of_mem_take second))
  · exact .inl rfl
  · exact digit c (List.mem_of_mem_drop (List.mem_of_mem_take third))
  · exact .inl rfl
  · exact digit c (List.mem_of_mem_drop (List.mem_of_mem_take fourth))
  · exact .inl rfl
  · exact digit c (List.mem_of_mem_drop fifth)

theorem filter_hyphenated (u : Uuid) :
    u.hyphenated.filter (· != '-') = u.digits.map hexDigit := by
  have digits : ∀ cs : List Char, (∀ c ∈ cs, c ∈ u.digits.map hexDigit) → cs.filter (· != '-') = cs := by
    intro cs each
    have kept : ∀ d, (hexDigit d != '-') = true := by decide
    refine List.filter_eq_self.mpr (fun c member => ?_)
    obtain ⟨d, -, rfl⟩ := List.mem_map.mp (each c member)
    exact kept d
  have regrouped : ∀ cs : List Char, cs.take 8 ++ ((cs.drop 8).take 4 ++ ((cs.drop 12).take 4 ++
      ((cs.drop 16).take 4 ++ cs.drop 20))) = cs := by
    intro cs
    have step : ∀ m n, (cs.drop m).take n ++ cs.drop (m + n) = cs.drop m := by
      intro m n
      rw [← List.drop_drop, List.take_append_drop]
    rw [step 16 4, step 12 4, step 8 4, List.take_append_drop]
  have hyphen : ∀ cs : List Char, ('-' :: cs).filter (· != '-') = cs.filter (· != '-') :=
    fun cs => List.filter_cons_of_neg (by decide)
  rw [hyphenated, List.filter_append, hyphen, List.filter_append, hyphen, List.filter_append, hyphen,
    List.filter_append, hyphen,
    digits _ (fun c member => List.mem_of_mem_take member),
    digits _ (fun c member => List.mem_of_mem_drop (List.mem_of_mem_take member)),
    digits _ (fun c member => List.mem_of_mem_drop (List.mem_of_mem_take member)),
    digits _ (fun c member => List.mem_of_mem_drop (List.mem_of_mem_take member)),
    digits _ (fun c member => List.mem_of_mem_drop member)]
  exact regrouped _

theorem isUuidText_python [Python.Libraries] (u : Uuid) :
    Python.isUuidText (Python.py u.toString) = true := by
  have text : Python.py u.toString = u.hyphenated.map Python.CodePoint.ofChar := by
    rw [Python.py, toString, String.toList_ofList]
  have digit : ∀ d, Python.CodePoint.ofChar (hexDigit d) ≠ Python.CodePoint.ofChar 'u' ∧
      Python.isBrace (Python.CodePoint.ofChar (hexDigit d)) = false ∧
      (Python.CodePoint.ofChar (hexDigit d) != Python.CodePoint.ofChar '-') = (hexDigit d != '-') ∧
      Python.isHexDigit (Python.CodePoint.ofChar (hexDigit d)) = true := by
    decide
  have plain : ∀ c ∈ u.hyphenated.map Python.CodePoint.ofChar,
      c ≠ Python.CodePoint.ofChar 'u' ∧ Python.isBrace c = false := by
    intro c member
    obtain ⟨char, spelled, rfl⟩ := List.mem_map.mp member
    rcases of_mem_hyphenated spelled with rfl | ⟨d, rfl⟩
    · decide
    · exact ⟨(digit d).1, (digit d).2.1⟩
  have absent : Python.CodePoint.ofChar 'u' ∉ u.hyphenated.map Python.CodePoint.ofChar :=
    fun member => (plain _ member).1 rfl
  have digits : (u.hyphenated.map Python.CodePoint.ofChar).filter (· != Python.CodePoint.ofChar '-') =
      (u.digits.map hexDigit).map Python.CodePoint.ofChar := by
    rw [← filter_hyphenated, List.filter_map]
    refine congrArg (List.map _) (List.filter_congr (fun c member => ?_))
    rcases of_mem_hyphenated member with rfl | ⟨d, rfl⟩
    · rfl
    · exact (digit d).2.2.1
  have hex : ∀ c ∈ (u.digits.map hexDigit).map Python.CodePoint.ofChar, Python.isHexDigit c = true := by
    intro c member
    rw [List.map_map] at member
    obtain ⟨d, -, rfl⟩ := List.mem_map.mp member
    exact (digit d).2.2.2
  have long : ((u.digits.map hexDigit).map Python.CodePoint.ofChar).length = 32 := by
    rw [List.length_map, List.length_map, u.length_eq]
  have removed : Python.removeFrom (Python.py "-") 0
      (Python.stripBraces (Python.removeFrom (Python.py "uuid:") 0
        (Python.removeFrom (Python.py "urn:") 0 (Python.py u.toString)))) =
      (u.digits.map hexDigit).map Python.CodePoint.ofChar := by
    rw [text]
    have urn := Python.removeFrom_absent (Python.py "rn:") absent
    have uuid := Python.removeFrom_absent (Python.py "uid:") absent
    have hyphens := Python.removeFrom_singleton (Python.CodePoint.ofChar '-')
      (u.hyphenated.map Python.CodePoint.ofChar)
    change Python.removeFrom (Python.py "-") 0 (Python.stripBraces (Python.removeFrom
      (Python.CodePoint.ofChar 'u' :: Python.py "uid:") 0 (Python.removeFrom
        (Python.CodePoint.ofChar 'u' :: Python.py "rn:") 0 _))) = _
    rw [urn, uuid, Python.stripBraces_absent (fun c member => (plain c member).2)]
    exact hyphens.trans digits
  have nonempty : (u.digits.map hexDigit).map Python.CodePoint.ofChar ≠ [] := by
    intro empty
    rw [empty] at long
    cases long
  rw [Python.isUuidText, removed, long, Python.isInt16_of_all hex nonempty]
  rfl

theorem units_typescript (u : Uuid) : ∃ unit : Char → TypeScript.CodeUnit,
    TypeScript.js u.toString = u.hyphenated.map unit ∧ [unit '-'] = TypeScript.js "-" ∧
      ∀ d, TypeScript.isHexUnit (unit (hexDigit d)) = true := by
  have ascii : ∀ d, TypeScript.utf16 (hexDigit d) = [Fin.ofNat 0x10000 (hexDigit d).toNat] := by
    decide
  refine ⟨fun c => Fin.ofNat 0x10000 c.toNat, ?_, rfl, by decide⟩
  rw [TypeScript.js, toString, String.toList_ofList, ← List.flatMap_pure_eq_map]
  refine List.flatMap_congr (fun c member => ?_)
  rcases of_mem_hyphenated member with rfl | ⟨d, rfl⟩
  · rfl
  · exact ascii d

theorem isUuidText_typescript (u : Uuid) :
    TypeScript.isUuidText (TypeScript.js u.toString) = true := by
  obtain ⟨unit, units, hyphen, digit⟩ := u.units_typescript
  have hyphenated : TypeScript.isHyphenated (TypeScript.js u.toString) = true := by
    rw [units]
    obtain ⟨digits, long⟩ := u
    match digits, long with
    | [a0, a1, a2, a3, a4, a5, a6, a7, b0, b1, b2, b3, c0, c1, c2, c3, d0, d1, d2, d3,
        e0, e1, e2, e3, e4, e5, e6, e7, e8, e9, e10, e11], _ =>
      simp [TypeScript.isHyphenated, Uuid.hyphenated, List.zipIdx, digit, hyphen]
  rw [TypeScript.isUuidText, hyphenated]
  rfl

end Uuid

end VaidSuite
