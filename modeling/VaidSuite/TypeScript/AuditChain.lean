import VaidSuite.TypeScript.ExitCode

/-! What the two findings about the audit chain say. A row that is no object, or whose hash is no
string, is neither recomputed nor counted as skipped, and a `seq` that is no number is not
compared with the one before it. -/
namespace VaidSuite.TypeScript.EvidenceBundle

section

variable [Host] {entries : List JsValue} {findings : List Finding}

omit [Host] in
/-- One can be added to a number without rounding. -/
def HasNext (b : Binary64.Bits) : Prop :=
  Binary64.isFinite b = true ∧ Binary64.isFinite (Binary64.add b (Binary64.ofNat 1)) = true ∧
    Binary64.units (Binary64.add b (Binary64.ofNat 1)) = Binary64.units b + 2 ^ 1075

omit [Host] in
/-- One number is the other and one. Units are those of `2 ^ -1075`. -/
def IsNext (b next : Binary64.Bits) : Prop :=
  Binary64.isFinite b = true ∧ Binary64.isFinite next = true ∧
    Binary64.units next = Binary64.units b + 2 ^ 1075

omit [Host] in
theorem units_of_eq {a b : Binary64.Bits} (same : Binary64.eq a b = true) :
    Binary64.units a = Binary64.units b ∧ Binary64.isFinite a = Binary64.isFinite b := by
  simp only [Binary64.eq, Bool.and_eq_true, Bool.or_eq_true, beq_iff_eq] at same
  rcases same.2 with rfl | ⟨zero, zero'⟩
  · exact ⟨rfl, rfl⟩
  · have units : ∀ {c : Binary64.Bits}, Binary64.isZero c = true → Binary64.units c = 0 := by
      intro c zero
      have low : c.toNat % 2 ^ 63 = 0 := beq_iff_eq.mp zero
      have exponent : Binary64.exponent c = 0 := by
        unfold Binary64.exponent
        omega
      have fraction : Binary64.fraction c = 0 := by
        unfold Binary64.fraction
        omega
      rw [Binary64.units, Binary64.significand, if_pos exponent, fraction, Nat.zero_mul, Nat.cast_zero,
        mul_zero]
    rw [units zero, units zero', isFinite_of_isZero zero, isFinite_of_isZero zero']
    exact ⟨rfl, rfl⟩

omit [Host] in
theorem isNext_iff {b next : Binary64.Bits}
    (same : Binary64.eq next (Binary64.add b (Binary64.ofNat 1)) = true) : IsNext b next ↔ HasNext b := by
  obtain ⟨units, finite⟩ := units_of_eq same
  rw [IsNext, HasNext, units, finite]

omit [Host] in
/-- The `seq` of a row is the number after that of the row before. -/
def Follows (prev e : JsValue) : Prop := ∃ prevSeq seq, asNumber (memberOf prev "seq") = some prevSeq ∧
  asNumber (memberOf e "seq") = some seq ∧ IsNext prevSeq seq

omit [Host] in
structure Linked (entries : List JsValue) : Prop where
  objects : ∀ e ∈ entries, isObjectType e = true
  numbers : ∀ e ∈ entries, (asNumber (memberOf e "seq")).isSome = true
  hashes : entries.IsChain
    (fun prev e => (memberOf e "prev_hash").strictEq (memberOf prev "entry_hash") = true)
  seqs : entries.IsChain Follows

omit [Host] in
/-- No `seq` escapes the comparison: where the rows link as far as they are compared, all are
numbers, and one is added without rounding to each of them but the last. -/
def SeqsCompared (entries : List JsValue) : Prop :=
  (∀ e ∈ entries, IsRow e) → entries.IsChain LinksTo →
    (∀ e ∈ entries, (asNumber (memberOf e "seq")).isSome = true) ∧
      ∀ e ∈ entries.dropLast, ∀ b, asNumber (memberOf e "seq") = some b → HasNext b

omit [Host] in
theorem isChain_follows (linked : entries.IsChain LinksTo)
    (numbers : ∀ e ∈ entries, (asNumber (memberOf e "seq")).isSome = true) : entries.IsChain Follows ↔
      ∀ e ∈ entries.dropLast, ∀ b, asNumber (memberOf e "seq") = some b → HasNext b := by
  induction entries with
  | nil => simp
  | cons prev entries ih =>
    cases entries with
    | nil => simp
    | cons e entries =>
      obtain ⟨link, linked⟩ := List.isChain_cons_cons.mp linked
      obtain ⟨prevSeq, numberedPrev⟩ := Option.isSome_iff_exists.mp (numbers prev List.mem_cons_self)
      obtain ⟨seq, numbered⟩ := Option.isSome_iff_exists.mp
        (numbers e (List.mem_cons_of_mem _ List.mem_cons_self))
      have step : Follows prev e ↔ HasNext prevSeq := by
        rw [← isNext_iff (link.2 seq numbered prevSeq numberedPrev)]
        simp [Follows, numberedPrev, numbered]
      rw [List.isChain_cons_cons, step, ih linked (fun e listed => numbers e (List.mem_cons_of_mem _ listed)),
        List.dropLast_cons_cons, List.forall_mem_cons, numberedPrev]
      simp

omit [Host] in
theorem linked_iff (rows : ∀ e ∈ entries, IsRow e) (linked : entries.IsChain LinksTo) :
    Linked entries ↔ (∀ e ∈ entries, (asNumber (memberOf e "seq")).isSome = true) ∧
      ∀ e ∈ entries.dropLast, ∀ b, asNumber (memberOf e "seq") = some b → HasNext b := by
  constructor
  · intro whole
    exact ⟨whole.numbers, (isChain_follows linked whole.numbers).mp whole.seqs⟩
  · rintro ⟨numbers, next⟩
    exact ⟨fun e listed => (rows e listed).1, numbers, linked.imp (fun _ _ link => link.1),
      (isChain_follows linked numbers).mpr next⟩

omit [Host] in
def claimedEntryHash (e : JsValue) : Option JsStr := (memberOf e "entry_hash").asStr

omit [Host] in
def isRecomputed (e : JsValue) : Bool := (claimedEntryHash e).isSome && isRecomputable e

omit [Host] in
def isSkipped (e : JsValue) : Bool := (claimedEntryHash e).isSome && !isRecomputable e

/-- `entry_hash` is the string that the scheme gives, up to letter case. -/
def Reproduces (e : JsValue) : Prop := ∃ claimed recomputed, claimedEntryHash e = some claimed ∧
  computeEntryHash e = .ok recomputed ∧ toLowerCase claimed = toLowerCase recomputed

omit [Host] in
theorem toLowerCase_lowerHex (bytes : Bytes) : toLowerCase (js (lowerHex bytes)) = js (lowerHex bytes) := by
  have digit : ∀ d < 16, toLowerCase (utf16 (Nat.digitChar d)) = utf16 (Nat.digitChar d) := by decide
  unfold js lowerHex
  rw [String.toList_ofList]
  induction bytes with
  | nil => rfl
  | cons x bytes ih =>
    have small := x.toNat_lt
    simp only [toLowerCase, List.flatMap_cons, List.cons_append, List.nil_append, List.map_append] at digit ih ⊢
    rw [digit _ (by omega), digit _ (by omega), ih]

theorem toLowerCase_computeEntryHash {e : JsValue} {hash : JsStr} (made : computeEntryHash e = .ok hash) :
    toLowerCase hash = hash := by
  unfold computeEntryHash at made
  obtain ⟨_, _, made⟩ := Raising.of_bind_eq_ok made
  obtain ⟨_, _, made⟩ := Raising.of_bind_eq_ok made
  obtain ⟨_, _, made⟩ := Raising.of_bind_eq_ok made
  rw [← Except.ok.inj made]
  exact toLowerCase_lowerHex _

omit [Host] in
theorem claimedEntryHash_of_notObject {e : JsValue} (notObject : isObjectType e = false) :
    claimedEntryHash e = none := by
  cases e with
  | obj members => cases notObject
  | arr items => cases notObject
  | _ => rfl

theorem reproduces_iff {e : JsValue} {claimed recomputed : JsStr} (claims : claimedEntryHash e = some claimed)
    (computed : computeEntryHash e = .ok recomputed) : Reproduces e ↔ recomputed = toLowerCase claimed := by
  have lower := toLowerCase_computeEntryHash computed
  constructor
  · rintro ⟨claimed', recomputed', claims', computed', same⟩
    cases Option.some.inj (claims.symm.trans claims')
    cases Except.ok.inj (computed.symm.trans computed')
    rw [same, lower]
  · intro same
    exact ⟨claimed, recomputed, claims, computed, by rw [lower, same]⟩

/-- One row: a hash that is recomputed is a problem unless it is reproduced, and a row is counted
as skipped where it is. -/
theorem auditRow_hashes {i : Nat} {prev : Option JsValue} {e : JsValue} {tally tally' : AuditTally}
    (step : auditRow i prev e tally = .ok tally') :
    (tally'.hashProblems = [] ↔ tally.hashProblems = [] ∧ (isRecomputed e = true → Reproduces e)) ∧
      tally'.notRecomputable.length = tally.notRecomputable.length + (isSkipped e).toNat := by
  unfold auditRow at step
  unfold isRecomputed isSkipped
  split at step
  · rename_i notObject
    cases Except.ok.inj step
    rw [claimedEntryHash_of_notObject (by simpa using notObject)]
    simp
  · obtain ⟨links, _, step⟩ := Raising.of_bind_eq_ok step
    split at step
    · rename_i claimed string
      have claims : claimedEntryHash e = some claimed := by rw [claimedEntryHash, string, JsValue.asStr]
      rw [claims]
      split at step
      · rename_i incomplete
        cases Except.ok.inj step
        have incomplete : isRecomputable e = false := by simpa using incomplete
        simp [incomplete]
      · rename_i complete
        have complete : isRecomputable e = true := by simpa using complete
        obtain ⟨recomputed, computed, step⟩ := Raising.of_bind_eq_ok step
        rw [reproduces_iff claims computed]
        split at step
        · rename_i same
          cases Except.ok.inj step
          have same : recomputed = toLowerCase claimed := by simpa using same
          simp [complete, same]
        · rename_i other
          obtain ⟨seq, _, step⟩ := Raising.of_bind_eq_ok step
          cases Except.ok.inj step
          have other : ¬ recomputed = toLowerCase claimed := by simpa using other
          simp [complete, other]
    · rename_i noString
      cases Except.ok.inj step
      have claims : claimedEntryHash e = none := by
        unfold claimedEntryHash
        cases read : memberOf e "entry_hash" with
        | str s => exact absurd read (noString s)
        | _ => rfl
      rw [claims]
      simp

/-- The loop finds no problem of a hash where every one that is recomputed is reproduced, and
counts the rows that are skipped. -/
theorem auditRows_hashes {i : Nat} {prev : Option JsValue} {tally tally' : AuditTally}
    (run : auditRows i prev entries tally = .ok tally') :
    (tally'.hashProblems = [] ↔ tally.hashProblems = [] ∧
      ∀ e ∈ entries, isRecomputed e = true → Reproduces e) ∧
      tally'.notRecomputable.length = tally.notRecomputable.length + entries.countP isSkipped := by
  induction entries generalizing i prev tally with
  | nil =>
    cases Except.ok.inj run
    simp
  | cons e entries ih =>
    rw [auditRows] at run
    obtain ⟨next, step, rest⟩ := Raising.of_bind_eq_ok run
    obtain ⟨problems, skipped⟩ := auditRow_hashes step
    obtain ⟨problems', skipped'⟩ := ih rest
    rw [problems', problems, skipped', skipped, List.forall_mem_cons, List.countP_cons, and_assoc]
    refine ⟨Iff.rfl, ?_⟩
    cases isSkipped e with
    | true => simp; omega
    | false => simp

omit [Host] in
/-- A row that is neither recomputed nor counted as skipped. -/
def isOverlooked (e : JsValue) : Bool := (claimedEntryHash e).isNone

omit [Host] in
theorem length_eq_counts (entries : List JsValue) : entries.length =
    entries.countP isRecomputed + entries.countP isSkipped + entries.countP isOverlooked := by
  induction entries with
  | nil => rfl
  | cons e entries ih =>
    rw [List.length_cons, List.countP_cons, List.countP_cons, List.countP_cons, ih]
    unfold isRecomputed isSkipped isOverlooked
    cases (claimedEntryHash e) <;> cases isRecomputable e <;> simp <;> omega

/-- What the findings about the audit chain say where they do not fail. -/
structure AuditFindingsMean (entries : List JsValue) (findings : List Finding) : Prop where
  linkage : ∀ f ∈ findings, f.id = "audit_linkage" → f.state = .pass → Linked entries
  pass : ∀ f ∈ findings, f.id = "audit_entry_hash" → f.state = .pass → ∀ e ∈ entries, Reproduces e
  /-- The rows that are not skipped are reproduced, and the text gives the number of those that
  were recomputed. -/
  caveat : ∀ f ∈ findings, f.id = "audit_entry_hash" → f.state = .caveat →
    (∀ e ∈ entries, isSkipped e = false → Reproduces e) ∧ ∃ rest, f.detail = js "all " ++
      js (toString (entries.countP isRecomputed)) ++ js " recomputable entry_hash values reproduce" ++ rest

/-- A row is overlooked only where another one is found not to reproduce its hash. -/
def NoneOverlooked (entries : List JsValue) : Prop :=
  (∀ e ∈ entries, isRecomputed e = true → Reproduces e) → ∀ e ∈ entries, isOverlooked e = false

theorem linkageOf_spec {problems : List JsStr} {f : Finding} (made : linkageOf entries problems = .ok f) :
    f.id = "audit_linkage" ∧ (f.state = .pass ↔ problems = []) := by
  unfold linkageOf at made
  split at made
  · rename_i some_
    cases Except.ok.inj made
    refine ⟨rfl, iff_of_false (by simp [linkageFinding]) ?_⟩
    rintro rfl
    exact absurd some_ (by simp)
  · rename_i none_
    obtain ⟨first, _, made⟩ := Raising.of_bind_eq_ok made
    obtain ⟨last, _, made⟩ := Raising.of_bind_eq_ok made
    cases Except.ok.inj made
    exact ⟨rfl, iff_of_true rfl (by simpa using none_)⟩

omit [Host] in
theorem caveat_text (tail : JsStr) : ∃ rest,
    js (" recomputable entry_hash values reproduce under the documented scheme — sha256(prev_hash || " ++
      "event_type || json(agent_id) || details.to_string() || recorded_at), raw concatenation, one " ++
      "hash.") ++ tail = js " recomputable entry_hash values reproduce" ++ rest := by
  have begins : js " recomputable entry_hash values reproduce" <+:
      js (" recomputable entry_hash values reproduce under the documented scheme — sha256(prev_hash || " ++
        "event_type || json(agent_id) || details.to_string() || recorded_at), raw concatenation, one " ++
        "hash.") := by
    decide +kernel
  obtain ⟨rest, text⟩ := begins
  exact ⟨rest ++ tail, by rw [← text, List.append_assoc]⟩

omit [Host] in
theorem entryHashesOf_spec (count : Nat) (tally : AuditTally) :
    (entryHashesOf count tally).id = "audit_entry_hash" ∧
      ((entryHashesOf count tally).state = .pass ↔ tally.hashProblems = [] ∧
        tally.notRecomputable.length < count ∧ tally.notRecomputable.length = 0) ∧
      ((entryHashesOf count tally).state = .caveat ↔ tally.hashProblems = [] ∧
        tally.notRecomputable.length < count ∧ tally.notRecomputable.length ≠ 0) ∧
      ((entryHashesOf count tally).state = .caveat → ∃ rest, (entryHashesOf count tally).detail =
        js "all " ++ js (toString (count - tally.notRecomputable.length)) ++
          js " recomputable entry_hash values reproduce" ++ rest) := by
  fun_cases entryHashesOf count tally with
  | case1 skipped recomputedCount skipNote failed problems =>
    have failed : ¬ tally.hashProblems = [] := by simpa using failed
    simp [entryHashFinding, failed]
  | case2 skipped recomputedCount clean none_ =>
    have few : ¬ tally.notRecomputable.length < count := by omega
    simp [entryHashFinding, few]
  | case3 skipped recomputedCount skipNote clean some_ partly =>
    have clean : tally.hashProblems = [] := by simpa using clean
    have some_ : tally.notRecomputable.length < count := by omega
    refine ⟨rfl, iff_of_false (by simp [entryHashFinding]) (fun whole => partly whole.2.2),
      iff_of_true rfl ⟨clean, some_, partly⟩, fun _ => ?_⟩
    obtain ⟨rest, text⟩ := caveat_text skipNote
    exact ⟨rest, by simp only [entryHashFinding, List.append_assoc, text]; rfl⟩
  | case4 skipped recomputedCount clean some_ all =>
    have clean : tally.hashProblems = [] := by simpa using clean
    have some_ : tally.notRecomputable.length < count := by omega
    have all : tally.notRecomputable.length = 0 := not_not.mp all
    exact ⟨rfl, iff_of_true rfl ⟨clean, some_, all⟩,
      iff_of_false (by simp [entryHashFinding]) (fun partly => partly.2.2 all), by simp [entryHashFinding]⟩

theorem auditChainFindings_spec (some_ : entries ≠ []) (run : auditChainFindings entries = .ok findings) :
    ∃ linkage hashes, findings = [linkage, hashes] ∧
      (linkage.id = "audit_linkage" ∧
        (linkage.state = .pass ↔ (∀ e ∈ entries, IsRow e) ∧ entries.IsChain LinksTo)) ∧
      hashes.id = "audit_entry_hash" ∧
      (hashes.state = .pass ↔ (∀ e ∈ entries, isRecomputed e = true → Reproduces e) ∧
        entries.countP isSkipped < entries.length ∧ entries.countP isSkipped = 0) ∧
      (hashes.state = .caveat ↔ (∀ e ∈ entries, isRecomputed e = true → Reproduces e) ∧
        entries.countP isSkipped < entries.length ∧ entries.countP isSkipped ≠ 0) ∧
      (hashes.state = .caveat → ∃ rest, hashes.detail =
        js "all " ++ js (toString (entries.length - entries.countP isSkipped)) ++
          js " recomputable entry_hash values reproduce" ++ rest) := by
  unfold auditChainFindings at run
  rw [if_neg (by simpa using some_)] at run
  obtain ⟨tally, looped, run⟩ := Raising.of_bind_eq_ok run
  obtain ⟨linkage, linked, run⟩ := Raising.of_bind_eq_ok run
  cases Except.ok.inj run
  obtain ⟨linkageId, linkagePass⟩ := linkageOf_spec linked
  obtain ⟨mismatches, skipped⟩ := auditRows_hashes looped
  rw [List.length_nil, Nat.zero_add] at skipped
  have hashes := entryHashesOf_spec entries.length tally
  rw [mismatches, skipped] at hashes
  have problems := auditRows_problems looped
  refine ⟨linkage, entryHashesOf entries.length tally, rfl, ⟨linkageId, ?_⟩, by simpa using hashes⟩
  simpa using linkagePass.trans problems

theorem not_isOverlooked {e : JsValue} (reproduces : Reproduces e) : isOverlooked e = false := by
  obtain ⟨claimed, _, claims, _⟩ := reproduces
  rw [isOverlooked, claims]
  rfl

/-- The findings mean what they say exactly where no `seq` escapes the comparison and no row is
overlooked. -/
theorem auditFindingsMean_iff (run : auditChainFindings entries = .ok findings) :
    AuditFindingsMean entries findings ↔ SeqsCompared entries ∧ NoneOverlooked entries := by
  rcases eq_or_ne entries [] with rfl | some_
  · cases Except.ok.inj run
    refine iff_of_true ⟨?_, ?_, ?_⟩ ⟨?_, ?_⟩
    · simp [linkageFinding]
    · simp
    · simp [linkageFinding]
    · simp [SeqsCompared]
    · simp [NoneOverlooked]
  obtain ⟨linkage, hashes, rfl, ⟨linkageId, linkagePass⟩, hashId, hashPass, hashCaveat, reported⟩ :=
    auditChainFindings_spec some_ run
  have counts := length_eq_counts entries
  constructor
  · intro means
    refine ⟨fun rows linked => ?_, fun reproduced e listed => ?_⟩
    · have passed := linkagePass.mpr ⟨rows, linked⟩
      exact (linked_iff rows linked).mp (means.linkage linkage (by simp) linkageId passed)
    · -- an overlooked row is not skipped, so that the hashes do not come out as not checked
      by_contra overlooked
      have overlooked : isOverlooked e = true := by simpa using overlooked
      have some_ : 0 < entries.countP isOverlooked := List.countP_pos_iff.mpr ⟨e, listed, overlooked⟩
      have unskipped : isSkipped e = false := by
        rw [isOverlooked, Option.isNone_iff_eq_none] at overlooked
        rw [isSkipped, overlooked]
        rfl
      have reproduces : Reproduces e := by
        by_cases none_ : entries.countP isSkipped = 0
        · exact means.pass hashes (by simp) hashId (hashPass.mpr ⟨reproduced, by omega, none_⟩) e listed
        · exact (means.caveat hashes (by simp) hashId
            (hashCaveat.mpr ⟨reproduced, by omega, none_⟩)).1 e listed unskipped
      rw [not_isOverlooked reproduces] at overlooked
      cases overlooked
  · rintro ⟨compared, seen⟩
    have remaining : (∀ e ∈ entries, isRecomputed e = true → Reproduces e) →
        ∀ e ∈ entries, isSkipped e = false → Reproduces e := by
      intro reproduced e listed unskipped
      refine reproduced e listed ?_
      have claims := seen reproduced e listed
      simp only [isSkipped, isOverlooked, isRecomputed, Bool.and_eq_false_iff, Bool.and_eq_true,
        Option.isNone_eq_false_iff, Option.isSome_eq_false_iff] at claims unskipped ⊢
      refine ⟨claims, ?_⟩
      rcases unskipped with none_ | complete
      · rw [Option.isNone_iff_eq_none.mp none_] at claims
        cases claims
      · simpa using complete
    refine ⟨?_, ?_, ?_⟩
    · intro f member id passed
      rcases List.mem_pair.mp member with rfl | rfl
      · obtain ⟨rows, linked⟩ := linkagePass.mp passed
        exact (linked_iff rows linked).mpr (compared rows linked)
      · exact absurd (hashId.symm.trans id) (by decide)
    · intro f member id passed e listed
      rcases List.mem_pair.mp member with rfl | rfl
      · exact absurd (linkageId.symm.trans id) (by decide)
      · obtain ⟨reproduced, _, none_⟩ := hashPass.mp passed
        exact remaining reproduced e listed (by simpa using List.countP_eq_zero.mp none_ e listed)
    · intro f member id caveated
      rcases List.mem_pair.mp member with rfl | rfl
      · exact absurd (linkageId.symm.trans id) (by decide)
      · obtain ⟨reproduced, _⟩ := hashCaveat.mp caveated
        obtain ⟨rest, text⟩ := reported caveated
        have none_ : entries.countP isOverlooked = 0 :=
          List.countP_eq_zero.mpr (fun e listed => by simpa using seen reproduced e listed)
        refine ⟨remaining reproduced, rest, ?_⟩
        rw [text, show entries.length - entries.countP isSkipped = entries.countP isRecomputed by omega]

end

section Example

local instance : Host := Host.toy

def rowsOf (text : JsStr) : List JsValue := itemsOf ((jsonParse text).getD .undefined)

def auditStates (text : JsStr) : Option (List FindingState) :=
  match auditChainFindings (rowsOf text) with
  | .ok findings => some (findings.map Finding.state)
  | .error _ => none

theorem of_auditStates {text : JsStr} {states : List FindingState} (run : auditStates text = some states) :
    ∃ findings, auditChainFindings (rowsOf text) = .ok findings ∧ findings.map Finding.state = states := by
  unfold auditStates at run
  split at run
  · rename_i findings returned
    exact ⟨findings, returned, Option.some.inj run⟩
  · cases run

def twoRows : JsStr := js "[" ++ auditText "1" "00" ++ js "," ++ auditText "2" "ab" ++ js "]"

theorem twoRows_run : auditStates twoRows = some [.pass, .pass] ∧
    (rowsOf twoRows).all (fun e => (claimedEntryHash e).isSome) = true ∧
    (rowsOf twoRows).map (fun e => asNumber (memberOf e "seq")) =
      [some (Binary64.ofNat 1), some (Binary64.ofNat 2)] := by
  decide +kernel

theorem auditFindingsMean_twoRows : ∃ findings, auditChainFindings (rowsOf twoRows) = .ok findings ∧
    AuditFindingsMean (rowsOf twoRows) findings := by
  obtain ⟨run, claims, seqs⟩ := twoRows_run
  obtain ⟨findings, returned, _⟩ := of_auditStates run
  refine ⟨findings, returned, (auditFindingsMean_iff returned).mpr ⟨fun _ _ => ?_, fun _ e listed => ?_⟩⟩
  · have number : ∀ e ∈ rowsOf twoRows, asNumber (memberOf e "seq") = some (Binary64.ofNat 1) ∨
        asNumber (memberOf e "seq") = some (Binary64.ofNat 2) := by
      intro e listed
      simpa [seqs] using List.mem_map_of_mem (f := fun e => asNumber (memberOf e "seq")) listed
    have next : HasNext (Binary64.ofNat 1) ∧ HasNext (Binary64.ofNat 2) := by
      unfold HasNext
      decide +kernel
    refine ⟨fun e listed => ?_, fun e listed b read => ?_⟩
    · rcases number e listed with seq | seq <;> rw [seq] <;> rfl
    · rcases number e (List.mem_of_mem_dropLast listed) with seq | seq
      · cases Option.some.inj (read.symm.trans seq)
        exact next.1
      · cases Option.some.inj (read.symm.trans seq)
        exact next.2
  · have claim := List.all_eq_true.mp claims e listed
    rw [isOverlooked]
    cases read : claimedEntryHash e with
    | none => rw [read] at claim; cases claim
    | some claimed => rfl

/-- One row, whose `seq` is no number and whose hash is no string. -/
def strangeRow : JsStr := js "[" ++ objectText [("seq", quoted (js "one")), ("prev_hash", js "null"),
  ("entry_hash", js "null")] ++ js "]"

theorem strangeRow_run : auditStates strangeRow = some [.pass, .pass] ∧
    (rowsOf strangeRow).map (fun e => asNumber (memberOf e "seq")) = [none] ∧
    (rowsOf strangeRow).map claimedEntryHash = [none] := by
  decide +kernel

/-- Both findings are passes, of a row that was neither numbered nor recomputed. -/
theorem strangeRow_passes : ∃ findings, auditChainFindings (rowsOf strangeRow) = .ok findings ∧
    findings.map Finding.state = [.pass, .pass] ∧
    (∃ e ∈ rowsOf strangeRow, asNumber (memberOf e "seq") = none ∧ claimedEntryHash e = none) ∧
    ¬ AuditFindingsMean (rowsOf strangeRow) findings := by
  obtain ⟨run, seqs, claims⟩ := strangeRow_run
  obtain ⟨findings, returned, states⟩ := of_auditStates run
  obtain ⟨e, rows, seq⟩ := List.map_eq_singleton_iff.mp seqs
  rw [rows] at claims returned ⊢
  have claim : claimedEntryHash e = none := List.singleton_inj.mp claims
  refine ⟨findings, returned, states, ⟨e, by simp, seq, claim⟩, fun means => ?_⟩
  obtain ⟨linkage, hashes, rfl, ⟨id, _⟩, _⟩ := auditChainFindings_spec (by simp) returned
  have passed : linkage.state = .pass := (List.cons.inj states).1
  have numbers := (means.linkage linkage (by simp) id passed).numbers e (by simp)
  rw [seq] at numbers
  cases numbers

end Example

end VaidSuite.TypeScript.EvidenceBundle
