import VaidSuite.TypeScript.AuditChain

/-! What the entry hash of an audit row binds. Five texts are hashed as one stream, so that the
hash tells neither where one text ends nor which type a member had. -/
namespace VaidSuite.TypeScript

/-- The characters that are encoded, with the lone surrogate that each one stands for. -/
def pieces : JsStr → List (Char × Option CodeUnit)
  | [] => []
  | c :: s =>
    if isHighSurrogate c then
      match s with
      | d :: t =>
        if isLowSurrogate d then
          (Char.ofNat (0x10000 + (c.val - 0xd800) * 0x400 + (d.val - 0xdc00)), none) :: pieces t
        else (Char.ofNat 0xfffd, some c) :: pieces (d :: t)
      | [] => [(Char.ofNat 0xfffd, some c)]
    else if isLowSurrogate c then (Char.ofNat 0xfffd, some c) :: pieces s
    else (Char.ofNat c.val, none) :: pieces s

def loneSurrogates (s : JsStr) : List (Option CodeUnit) := (pieces s).map Prod.snd

theorem encode_pieces (s : JsStr) : encode s = encode (((pieces s).map Prod.fst).flatMap utf16) := by
  fun_induction pieces s with
  | case1 => rfl
  | case2 c high d t low ih =>
    rw [encode, if_pos high, if_pos low, List.map_cons, List.flatMap_cons, encode_utf16, ← ih]
  | case3 c high d t low ih =>
    rw [encode, if_pos high, if_neg low, List.map_cons, List.flatMap_cons, encode_utf16, ← ih]
  | case4 c high =>
    rw [encode, if_pos high, List.map_cons, List.flatMap_cons, encode_utf16]
    simp [encode]
  | case5 c s high low ih =>
    rw [encode.eq_def]
    simp only [if_neg high, if_pos low]
    rw [List.map_cons, List.flatMap_cons, encode_utf16, ← ih]
  | case6 c s high low ih =>
    rw [encode.eq_def]
    simp only [if_neg high, if_neg low]
    rw [List.map_cons, List.flatMap_cons, encode_utf16, ← ih]

theorem units_pieces (s : JsStr) :
    (pieces s).flatMap (fun p => p.2.elim (utf16 p.1) (fun u => [u])) = s := by
  fun_induction pieces s with
  | case1 => rfl
  | case2 c high d t low ih =>
    rw [List.flatMap_cons, ih, Option.elim_none, utf16_pair high low]
    rfl
  | case3 c high d t low ih =>
    rw [List.flatMap_cons, ih]
    rfl
  | case4 c high => rfl
  | case5 c s high low ih =>
    rw [List.flatMap_cons, ih]
    rfl
  | case6 c s high low ih =>
    have unit : utf16 (Char.ofNat c.val) = [c] := by
      have valid : c.val.isValidChar := by
        simp only [isHighSurrogate, isLowSurrogate, Bool.and_eq_true, decide_eq_true_eq] at high low
        have := c.isLt
        by_cases below : c.val < 0xd800
        · exact .inl below
        · exact .inr ⟨by omega, by omega⟩
      rw [utf16, toNat_ofNat valid, if_pos c.isLt, Fin.ofNat_val_eq_self]
    rw [List.flatMap_cons, ih, Option.elim_none, unit]
    rfl

theorem eq_of_encode {s t : JsStr} (same : encode s = encode t)
    (lone : loneSurrogates s = loneSurrogates t) : s = t := by
  rw [encode_pieces s, encode_pieces t] at same
  have chars := encode_chars_injective same
  have pairs : pieces s = pieces t := by
    have zipped (u : JsStr) : pieces u = ((pieces u).map Prod.fst).zip ((pieces u).map Prod.snd) :=
      List.zip_of_prod rfl rfl
    rw [zipped s, zipped t, chars]
    exact congrArg (List.zip _) lone
  rw [← units_pieces s, ← units_pieces t, pairs]

/-- What the language says of the strings of values. -/
structure TextsDocumented [Runtime] : Prop where
  bool : ∀ b, Runtime.toText (.bool b) = some (js (if b then "true" else "false"))
  finite : ∀ b, Binary64.isFinite b = true → Runtime.toText (.num b) = some (unitsOf (numberText b))
  infinite : ∀ b, Binary64.isFinite b = false → Binary64.isNaN b = false →
    Runtime.toText (.num b) = some (js (if Binary64.negative b then "-Infinity" else "Infinity"))
  /-- The string tells neither the sign of a zero nor the order of the members. -/
  normal : ∀ v w, v.normal = w.normal → Runtime.toText v = Runtime.toText w

theorem toText_num [Runtime] (texts : TextsDocumented) {b : Binary64.Bits} (number : Binary64.isNaN b = false) :
    ∃ chars : List Char, Runtime.toText (.num b) = some (chars.flatMap utf16) := by
  cases finite : Binary64.isFinite b with
  | true =>
    obtain ⟨chars, units⟩ := (isUnicode_numberText finite).units.1
    exact ⟨chars, by rw [texts.finite b finite, units]⟩
  | false => exact ⟨_, texts.infinite b finite number⟩

theorem eq_of_infinite {a b : Binary64.Bits} (ha : Binary64.isFinite a = false) (hb : Binary64.isFinite b = false)
    (na : Binary64.isNaN a = false) (nb : Binary64.isNaN b = false)
    (sign : Binary64.negative a = Binary64.negative b) : a = b := by
  simp only [Binary64.isFinite, bne_eq_false_iff_eq] at ha hb
  simp only [Binary64.isNaN, ha, hb, beq_self_eq_true, Bool.true_and, bne_eq_false_iff_eq] at na nb
  simp only [Binary64.negative, decide_eq_decide] at sign
  unfold Binary64.exponent Binary64.fraction at *
  have := a.isLt
  have := b.isLt
  exact BitVec.eq_of_toNat_eq (by omega)

theorem num_of_toText [Runtime] (texts : TextsDocumented) {a b : Binary64.Bits}
    (na : Binary64.isNaN a = false) (nb : Binary64.isNaN b = false)
    (same : Runtime.toText (.num a) = Runtime.toText (.num b)) :
    (JsValue.num a).normal = (JsValue.num b).normal := by
  have word : ∀ {c d : Binary64.Bits}, Binary64.isFinite c = true →
      unitsOf (numberText c) ≠ js (if Binary64.negative d then "-Infinity" else "Infinity") := by
    intro c d finite text
    have codes := congrArg (List.map Fin.val) text
    rw [(isUnicode_numberText finite).units.2] at codes
    have standard := numberText_standard finite
    rw [codes] at standard
    cases sign : Binary64.negative d <;> rw [sign] at standard
    · exact absurd standard (by decide)
    · exact absurd standard (by decide)
  cases ha : Binary64.isFinite a with
  | true =>
    cases hb : Binary64.isFinite b with
    | true =>
      rw [texts.finite a ha, texts.finite b hb, Option.some.injEq] at same
      have codes := congrArg (List.map Fin.val) same
      rw [(isUnicode_numberText ha).units.2, (isUnicode_numberText hb).units.2] at codes
      rw [JsValue.normal, JsValue.normal, ← numberOf_numberText ha, ← numberOf_numberText hb, codes]
    | false =>
      rw [texts.finite a ha, texts.infinite b hb nb, Option.some.injEq] at same
      exact absurd same (word ha)
  | false =>
    cases hb : Binary64.isFinite b with
    | true =>
      rw [texts.infinite a ha na, texts.finite b hb, Option.some.injEq] at same
      exact absurd same.symm (word hb)
    | false =>
      rw [texts.infinite a ha na, texts.infinite b hb nb, Option.some.injEq] at same
      have sign : Binary64.negative a = Binary64.negative b := by
        cases sa : Binary64.negative a <;> cases sb : Binary64.negative b <;> rw [sa, sb] at same
        · exact absurd same (by decide)
        · exact absurd same (by decide)
      rw [eq_of_infinite ha hb na nb sign]

def JsValue.IsParsed (v : JsValue) : Prop := ∃ t : JsonText.Tree, ofTree t = v

theorem isJson_of_isParsed {v : JsValue} (h : v.IsParsed) : v.IsJson := by
  obtain ⟨t, rfl⟩ := h
  exact ofTree_isJson t

theorem isNaN_of_isParsed {b : Binary64.Bits} (h : (JsValue.num b).IsParsed) : Binary64.isNaN b = false := by
  obtain ⟨t, read⟩ := h
  cases t with
  | num spelling =>
    rw [ofTree, JsValue.num.injEq] at read
    rw [← read]
    exact Binary64.isNaN_ofDecimal _ _ _
  | _ => simp [ofTree] at read

namespace EvidenceBundle

theorem memberOf_isParsed {v : JsValue} (h : v.IsParsed) (key : String) :
    memberOf v key = .undefined ∨ (memberOf v key).IsParsed := by
  obtain ⟨t, rfl⟩ := h
  cases t with
  | obj members =>
    rw [ofTree, memberOf, Members.get]
    cases held : (ofMembers [] members).lookup (js key) with
    | none => exact .inl rfl
    | some v =>
      rw [ofMembers_eq] at held
      obtain ⟨m, _, same⟩ := List.mem_map.mp (InsertionMap.mem_of_lookup held)
      exact .inr ⟨m.2.2, (Prod.mk.inj same).2⟩
  | _ => exact .inl rfl

section

variable [Host] {e e' : JsValue}

/-- The text of `agent_id` in the scheme. -/
def agentIdText (e : JsValue) : JsStr :=
  match memberOf e "agent_id" with
  | .undefined | .null => js "null"
  | agentId => shown agentId

/-- The five texts that are hashed, in their order. -/
def renderings (e : JsValue) : Throws (List JsStr) := do
  let prevHash ← template (memberOf e "prev_hash")
  let eventType ← template (memberOf e "event_type")
  let recordedAt ← template (memberOf e "recorded_at")
  return [prevHash, eventType, agentIdText e, encodable (memberOf e "details"), recordedAt]

/-- The stream that is hashed: nothing stands between the texts. -/
def stream (texts : List JsStr) : Bytes := texts.flatMap encode

theorem computeEntryHash_eq (e : JsValue) :
    computeEntryHash e = (renderings e).map (fun texts => sha256Hex (stream texts)) := by
  unfold computeEntryHash renderings
  cases template (memberOf e "prev_hash") with
  | error _ => rfl
  | ok prevHash =>
    cases template (memberOf e "event_type") with
    | error _ => rfl
    | ok eventType =>
      cases template (memberOf e "recorded_at") with
      | error _ => rfl
      | ok recordedAt =>
        simp only [Raising.ok_bind, agentIdText, stream]
        cases memberOf e "agent_id" <;> simp [pure, Except.pure, Except.map]

/-- Rows that agree in the members of the scheme, `details` in its text. -/
structure RowsAgree (e e' : JsValue) : Prop where
  prevHash : (memberOf e "prev_hash").normal = (memberOf e' "prev_hash").normal
  eventType : memberOf e "event_type" = memberOf e' "event_type"
  agentId : (memberOf e "agent_id").normal = (memberOf e' "agent_id").normal
  details : stringify (memberOf e "details") = stringify (memberOf e' "details")
  recordedAt : (memberOf e "recorded_at").normal = (memberOf e' "recorded_at").normal

omit [Host] in
/-- The texts are cut at the same places of the stream. -/
def CutAlike (texts texts' : List JsStr) : Prop :=
  texts.map (fun t => (encode t).length) = texts'.map (fun t => (encode t).length)

omit [Host] in
/-- Values of one type, which `String(v)` tells apart: a lone surrogate is replaced when it is
encoded, and of an array or an object the string tells little. -/
def SameKind : JsValue → JsValue → Prop
  | .undefined, .undefined | .null, .null | .bool _, .bool _ | .num _, .num _ => True
  | .str s, .str t => loneSurrogates s = loneSurrogates t
  | .arr items, .arr items' => (JsValue.arr items).normal = (JsValue.arr items').normal
  | .obj members, .obj members' => (JsValue.obj members).normal = (JsValue.obj members').normal
  | _, _ => False

omit [Host] in
/-- Rows whose members differ at most in what their texts tell. -/
structure KindsAgree (e e' : JsValue) : Prop where
  prevHash : SameKind (memberOf e "prev_hash") (memberOf e' "prev_hash")
  eventType : SameKind (memberOf e "event_type") (memberOf e' "event_type")
  /-- What is written as `null` stands for the same values. -/
  agentId : (memberOf e "agent_id").normal.nulls = (memberOf e' "agent_id").normal.nulls
  recordedAt : SameKind (memberOf e "recorded_at") (memberOf e' "recorded_at")

omit [Host] in
theorem encode_of_stream {texts texts' : List JsStr} (same : stream texts = stream texts')
    (cut : CutAlike texts texts') : texts.map encode = texts'.map encode := by
  induction texts generalizing texts' with
  | nil =>
    cases texts' with
    | nil => rfl
    | cons t texts' => cases cut
  | cons t texts ih =>
    cases texts' with
    | nil => cases cut
    | cons t' texts' =>
      simp only [CutAlike, List.map_cons, List.cons.injEq] at cut
      simp only [stream, List.flatMap_cons] at same
      obtain ⟨first, others⟩ := List.append_inj same cut.1
      rw [List.map_cons, List.map_cons, first, ih others cut.2]

omit [Host] in
theorem sameKind_of_normal {v w : JsValue} (same : v.normal = w.normal) : SameKind v w := by
  cases v <;> cases w <;> simp_all [SameKind, JsValue.normal]

omit [Host] in
theorem str_of_normal {v : JsValue} {s : JsStr} (same : (JsValue.str s).normal = v.normal) : v = .str s := by
  cases v <;> simp_all [JsValue.normal]

theorem toText_of_template {v : JsValue} (notString : ∀ s, v ≠ .str s) {s : JsStr}
    (shown : template v = .ok s) : Runtime.toText v = some s := by
  unfold template at shown
  split at shown
  · exact absurd rfl (notString _)
  · split at shown
    · rename_i text
      rw [text, Except.ok.inj shown]
    · cases shown

theorem template_of_normal (texts : TextsDocumented) {v w : JsValue} (same : v.normal = w.normal) {s t : JsStr}
    (shownV : template v = .ok s) (shownW : template w = .ok t) : s = t := by
  by_cases string : ∃ u, v = .str u
  · obtain ⟨u, rfl⟩ := string
    rw [str_of_normal same] at shownW
    exact (Except.ok.inj shownV).symm.trans (Except.ok.inj shownW)
  · have other : ¬ ∃ u, w = .str u := by
      rintro ⟨u, rfl⟩
      exact string ⟨u, str_of_normal same.symm⟩
    have left := toText_of_template (not_exists.mp string) shownV
    have right := toText_of_template (not_exists.mp other) shownW
    rw [texts.normal v w same, right] at left
    exact (Option.some.inj left).symm

theorem normal_of_template (texts : TextsDocumented) {v w : JsValue}
    (hv : v = .undefined ∨ v.IsParsed) (hw : w = .undefined ∨ w.IsParsed) (kind : SameKind v w)
    {s t : JsStr} (shownV : template v = .ok s) (shownW : template w = .ok t) (same : encode s = encode t) :
    v.normal = w.normal := by
  cases v with
  | undefined => cases w <;> first | rfl | exact kind.elim
  | null => cases w <;> first | rfl | exact kind.elim
  | bool b =>
    cases w with
    | bool b' =>
      have left := toText_of_template (by simp) shownV
      have right := toText_of_template (by simp) shownW
      rw [texts.bool] at left right
      rw [← Option.some.inj left, ← Option.some.inj right] at same
      have word := encode_chars_injective same
      cases b <;> cases b' <;> first | rfl | exact absurd word (by decide)
    | _ => exact kind.elim
  | num b =>
    cases w with
    | num b' =>
      have number : ∀ {c : Binary64.Bits}, JsValue.num c = .undefined ∨ (JsValue.num c).IsParsed →
          Binary64.isNaN c = false := fun h => isNaN_of_isParsed (h.resolve_left (by simp))
      have left := toText_of_template (by simp) shownV
      have right := toText_of_template (by simp) shownW
      obtain ⟨chars, text⟩ := toText_num texts (number hv)
      obtain ⟨chars', text'⟩ := toText_num texts (number hw)
      rw [← Option.some.inj (text.symm.trans left), ← Option.some.inj (text'.symm.trans right)] at same
      refine num_of_toText texts (number hv) (number hw) ?_
      rw [text, text', encode_chars_injective same]
    | _ => exact kind.elim
  | str s' =>
    cases w with
    | str t' =>
      cases Except.ok.inj shownV
      cases Except.ok.inj shownW
      rw [eq_of_encode same kind]
    | _ => exact kind.elim
  | arr items =>
    cases w with
    | arr items' => exact kind
    | _ => exact kind.elim
  | obj members =>
    cases w with
    | obj members' => exact kind
    | _ => exact kind.elim

omit [Host] in
theorem eq_of_shown {v w : JsValue} (hv : v.IsJson) (hw : w.IsJson) (same : encode (shown v) = encode (shown w)) :
    stringify v = stringify w := by
  have text : ∀ {u : JsValue}, u.IsJson → shown u = unitsOf (plainTree u.ordered).text := by
    intro u json
    rw [shown, stringify_eq u json]
    rfl
  rw [text hv, text hw] at same
  rw [stringify_eq v hv, stringify_eq w hw, encode_injective (isUnicode_plainTree _) (isUnicode_plainTree _) same]

omit [Host] in
theorem encodable_eq {v : JsValue} (json : v.IsJson) : encodable v = shown v := by
  rw [encodable, shown, stringify_eq v json]
  rfl

omit [Host] in
theorem agentIdText_eq (e : JsValue) : agentIdText e = shown ((memberOf e "agent_id").orElse .null) := by
  unfold agentIdText
  cases memberOf e "agent_id" <;> rfl

omit [Host] in
theorem normal_of_orElse {v w : JsValue} (hv : v = .undefined ∨ v.IsJson) (hw : w = .undefined ∨ w.IsJson)
    (same : stringify (v.orElse .null) = stringify (w.orElse .null)) (nulls : v.normal.nulls = w.normal.nulls) :
    v.normal = w.normal := by
  have present : ∀ {u : JsValue}, u.IsJson → u.orElse .null = u := by
    intro u json
    cases u <;> first | rfl | simp [JsValue.IsJson] at json
  have absent : ∀ {u : JsValue}, u.IsJson → stringify .null = stringify u → u.normal.nulls ≠ [] := by
    intro u json text none_
    have erased := erased_of_stringify (v := .null) (by simp [JsValue.IsJson]) json text
    have length := length_nulls u.normal
    rw [← erased, none_] at length
    cases length
  rcases hv with rfl | hv <;> rcases hw with rfl | hw
  · rfl
  · rw [present hw] at same
    exact absurd nulls.symm (absent hw same)
  · rw [present hv] at same
    exact absurd nulls (absent hv same.symm)
  · rw [present hv, present hw] at same
    exact (normal_of_stringify hv hw same).mpr nulls

omit [Host] in
theorem isJson_of_member {e : JsValue} (parsed : e.IsParsed) (key : String) :
    memberOf e key = .undefined ∨ (memberOf e key).IsJson :=
  (memberOf_isParsed parsed key).imp id isJson_of_isParsed

omit [Host] in
theorem isJson_orElse {v : JsValue} (h : v = .undefined ∨ v.IsJson) : (v.orElse .null).IsJson := by
  rcases h with rfl | json
  · simp [JsValue.orElse, JsValue.IsJson]
  · cases v <;> first | exact json | simp [JsValue.orElse, JsValue.IsJson]

/-- Rows of one entry hash agree in the members of the scheme exactly where their texts are cut
at the same places of the stream, and no type is changed that the texts do not tell. -/
theorem rowsAgree_iff (documented : TextsDocumented) (parsed : e.IsParsed) (parsed' : e'.IsParsed)
    (event : (memberOf e "event_type").asStr.isSome = true)
    (details : memberOf e "details" ≠ .undefined) (details' : memberOf e' "details" ≠ .undefined)
    {texts texts' : List JsStr} (rendered : renderings e = .ok texts) (rendered' : renderings e' = .ok texts')
    (same : computeEntryHash e = computeEntryHash e')
    (collisionFree : Runtime.sha256 (stream texts) = Runtime.sha256 (stream texts') →
      stream texts = stream texts') :
    RowsAgree e e' ↔ CutAlike texts texts' ∧ KindsAgree e e' := by
  rw [computeEntryHash_eq, computeEntryHash_eq, rendered, rendered'] at same
  have streams := collisionFree (lowerHex_injective (js_injective (Except.ok.inj same)))
  have json := (isJson_of_member parsed "details").resolve_left details
  have json' := (isJson_of_member parsed' "details").resolve_left details'
  unfold renderings at rendered rendered'
  obtain ⟨prevHash, hash, rendered⟩ := Raising.of_bind_eq_ok rendered
  obtain ⟨eventType, type, rendered⟩ := Raising.of_bind_eq_ok rendered
  obtain ⟨recordedAt, time, rendered⟩ := Raising.of_bind_eq_ok rendered
  obtain ⟨prevHash', hash', rendered'⟩ := Raising.of_bind_eq_ok rendered'
  obtain ⟨eventType', type', rendered'⟩ := Raising.of_bind_eq_ok rendered'
  obtain ⟨recordedAt', time', rendered'⟩ := Raising.of_bind_eq_ok rendered'
  cases Except.ok.inj rendered
  cases Except.ok.inj rendered'
  constructor
  · intro agree
    refine ⟨?_, sameKind_of_normal agree.prevHash, ?_, by rw [agree.agentId], sameKind_of_normal agree.recordedAt⟩
    · -- the text of `agent_id` is as long as what the other texts leave of the stream
      have hashes := template_of_normal documented agree.prevHash hash hash'
      have types := template_of_normal documented (congrArg JsValue.normal agree.eventType) type type'
      have times := template_of_normal documented agree.recordedAt time time'
      have shownDetails : encodable (memberOf e "details") = encodable (memberOf e' "details") := by
        rw [encodable, encodable, agree.details]
      have lengths := congrArg List.length streams
      simp only [stream, List.flatMap_cons, List.flatMap_nil, List.length_append, hashes, types, times,
        shownDetails] at lengths
      simp only [CutAlike, List.map_cons, List.map_nil, hashes, types, times, shownDetails, List.cons.injEq,
        and_true, true_and]
      omega
    · exact sameKind_of_normal (congrArg JsValue.normal agree.eventType)
  · rintro ⟨cut, kinds⟩
    have texts := encode_of_stream streams cut
    simp only [List.map_cons, List.map_nil, List.cons.injEq, and_true] at texts
    obtain ⟨hashes, types, agents, shownDetails, times⟩ := texts
    rw [encodable_eq json, encodable_eq json'] at shownDetails
    refine ⟨?_, ?_, ?_, eq_of_shown json json' shownDetails, ?_⟩
    · exact normal_of_template documented (memberOf_isParsed parsed _) (memberOf_isParsed parsed' _)
        kinds.prevHash hash hash' hashes
    · have normal := normal_of_template documented (memberOf_isParsed parsed _) (memberOf_isParsed parsed' _)
        kinds.eventType type type' types
      cases read : memberOf e "event_type" with
      | str s =>
        rw [read] at normal
        exact (str_of_normal normal).symm
      | _ => rw [read] at event; cases event
    · rw [agentIdText_eq, agentIdText_eq] at agents
      have agent := isJson_of_member parsed "agent_id"
      have agent' := isJson_of_member parsed' "agent_id"
      exact normal_of_orElse agent agent' (eq_of_shown (isJson_orElse agent) (isJson_orElse agent') agents)
        kinds.agentId
    · exact normal_of_template documented (memberOf_isParsed parsed _) (memberOf_isParsed parsed' _)
        kinds.recordedAt time time' times

end

section Example

/-- A hash without collisions, and the strings of numbers and booleans. -/
@[reducible] def Host.transparent : Host where
  toRuntime := { Runtime.toy with
    sha256 := id
    toText := fun v =>
      match v with
      | .bool b => some (js (if b then "true" else "false"))
      | .num b =>
        if Binary64.isFinite b then some (unitsOf (numberText b))
        else if Binary64.isNaN b then none
        else some (js (if Binary64.negative b then "-Infinity" else "Infinity"))
      | _ => none }
  unb64u _ := none
  toISOString _ := []
  messageOf _ := []

local instance : Host := Host.transparent

theorem textsDocumented_transparent : TextsDocumented where
  bool _ := rfl
  finite b finite := if_pos finite
  infinite b infinite number := by
    refine (if_neg (by simp [infinite])).trans (if_neg (by simp [number]))
  normal v w same := by
    by_cases numbers : ∃ a b, v = .num a ∧ w = .num b
    · obtain ⟨a, b, rfl, rfl⟩ := numbers
      rw [JsValue.normal, JsValue.normal, JsValue.num.injEq] at same
      have zero : ∀ {c : Binary64.Bits}, Binary64.isZero c = true →
          Runtime.toText (.num c) = some (unitsOf [0x30]) := by
        intro c zero
        refine (if_pos (isFinite_of_isZero zero)).trans ?_
        rw [numberText, if_pos zero]
      by_cases za : Binary64.isZero a = true <;> by_cases zb : Binary64.isZero b = true
      · rw [zero za, zero zb]
      · rw [if_pos za, if_neg zb] at same
        exact absurd (same ▸ rfl : Binary64.isZero b = true) zb
      · rw [if_neg za, if_pos zb] at same
        exact absurd (same ▸ rfl : Binary64.isZero a = true) za
      · rw [if_neg za, if_neg zb] at same
        rw [same]
    · cases v <;> cases w <;> simp_all [JsValue.normal, Runtime.toText]

def schemeText (prevHash eventType : String) : JsStr :=
  objectText [("prev_hash", quoted (js prevHash)), ("event_type", quoted (js eventType)),
    ("agent_id", quoted (js "agent")), ("details", js "\x7b\x7d"), ("recorded_at", quoted (js "now"))]

/-- The same row as one of these, its members in another order. -/
def turnedText : JsStr :=
  objectText [("recorded_at", quoted (js "now")), ("details", js "\x7b\x7d"), ("agent_id", quoted (js "agent")),
    ("event_type", quoted (js "call")), ("prev_hash", quoted (js "ab"))]

def rowOf (text : JsStr) : JsValue := (jsonParse text).getD .undefined

def renderedAs (text : JsStr) (texts : List String) : Bool :=
  match renderings (rowOf text) with
  | .ok rendered => rendered == texts.map js
  | .error _ => false

theorem of_renderedAs {text : JsStr} {texts : List String} (run : renderedAs text texts = true) :
    renderings (rowOf text) = .ok (texts.map js) := by
  unfold renderedAs at run
  split at run
  · rename_i rendered returned
    rw [returned, beq_iff_eq.mp run]
  · cases run

theorem rowOf_isParsed {text : JsStr} (reads : (jsonParse text).isSome = true) : (rowOf text).IsParsed := by
  obtain ⟨v, parsed⟩ := Option.isSome_iff_exists.mp reads
  obtain ⟨t, _, read⟩ := Option.map_eq_some_iff.mp parsed
  exact ⟨t, by rw [rowOf, parsed, read]; rfl⟩

structure IsScheme (e : JsValue) (first second : String) : Prop where
  parsed : e.IsParsed
  prevHash : memberOf e "prev_hash" = .str (js first)
  eventType : memberOf e "event_type" = .str (js second)
  agentId : memberOf e "agent_id" = .str (js "agent")
  details : memberOf e "details" ≠ .undefined
  recordedAt : memberOf e "recorded_at" = .str (js "now")
  rendered : renderings e =
    .ok ([first, second, "\"agent\"", "\x7b\x7d", "now"].map js)

def readsScheme (text : JsStr) (prevHash eventType : String) : Bool :=
  (jsonParse text).isSome && (memberOf (rowOf text) "prev_hash").strictEq (.str (js prevHash)) &&
    (memberOf (rowOf text) "event_type").strictEq (.str (js eventType)) &&
    (memberOf (rowOf text) "agent_id").strictEq (.str (js "agent")) &&
    !(memberOf (rowOf text) "details").strictEq .undefined &&
    (memberOf (rowOf text) "recorded_at").strictEq (.str (js "now")) &&
    renderedAs text [prevHash, eventType, "\"agent\"", "\x7b\x7d", "now"]

theorem str_of_strictEq {v : JsValue} {s : JsStr} (same : v.strictEq (.str s) = true) : v = .str s := by
  cases v with
  | str t => rw [beq_iff_eq.mp (same : (t == s) = true)]
  | _ => cases same

theorem isScheme_of_reads {text : JsStr} {prevHash eventType : String}
    (reads : readsScheme text prevHash eventType = true) : IsScheme (rowOf text) prevHash eventType := by
  simp only [readsScheme, Bool.and_eq_true] at reads
  obtain ⟨⟨⟨⟨⟨⟨parsed, prev⟩, event⟩, agent⟩, details⟩, recorded⟩, rendered⟩ := reads
  refine ⟨rowOf_isParsed parsed, str_of_strictEq prev, str_of_strictEq event, str_of_strictEq agent, ?_,
    str_of_strictEq recorded, of_renderedAs rendered⟩
  intro absent
  rw [absent] at details
  cases details

theorem example_reads : readsScheme (schemeText "ab" "call") "ab" "call" = true ∧
    readsScheme turnedText "ab" "call" = true ∧ readsScheme (schemeText "abc" "all") "abc" "all" = true := by
  decide +kernel

theorem rowsAgree_turned : RowsAgree (rowOf (schemeText "ab" "call")) (rowOf turnedText) := by
  obtain ⟨reads, reads', _⟩ := example_reads
  have row := isScheme_of_reads reads
  have row' := isScheme_of_reads reads'
  refine (rowsAgree_iff textsDocumented_transparent row.parsed row'.parsed (by rw [row.eventType]; rfl)
    row.details row'.details row.rendered row'.rendered ?_ id).mpr ⟨rfl, ?_, ?_, ?_, ?_⟩
  · rw [computeEntryHash_eq, computeEntryHash_eq, row.rendered, row'.rendered]
  · rw [row.prevHash, row'.prevHash]
    rfl
  · rw [row.eventType, row'.eventType]
    rfl
  · rw [row.agentId, row'.agentId]
  · rw [row.recordedAt, row'.recordedAt]
    rfl

/-- A letter goes from one member to the next, and the hash stays the same. -/
theorem entryHash_joins : ∃ e e' : JsValue, e.IsParsed ∧ e'.IsParsed ∧
    Function.Injective (Runtime.sha256 : Bytes → Bytes) ∧
    (∃ hash, computeEntryHash e = .ok hash ∧ computeEntryHash e' = .ok hash) ∧
    memberOf e "details" ≠ .undefined ∧ memberOf e' "details" ≠ .undefined ∧
    memberOf e "prev_hash" = .str (js "ab") ∧ memberOf e' "prev_hash" = .str (js "abc") ∧
    memberOf e "event_type" = .str (js "call") ∧ memberOf e' "event_type" = .str (js "all") ∧
    ¬ RowsAgree e e' := by
  obtain ⟨reads, _, reads'⟩ := example_reads
  have row := isScheme_of_reads reads
  have row' := isScheme_of_reads reads'
  have joined : stream (["abc", "all", "\"agent\"", "\x7b\x7d", "now"].map js) =
      stream (["ab", "call", "\"agent\"", "\x7b\x7d", "now"].map js) := by
    decide +kernel
  refine ⟨_, _, row.parsed, row'.parsed, fun _ _ same => same,
    ⟨sha256Hex (stream (["ab", "call", "\"agent\"", "\x7b\x7d", "now"].map js)), ?_, ?_⟩, row.details,
    row'.details, row.prevHash, row'.prevHash, row.eventType, row'.eventType, fun agree => ?_⟩
  · rw [computeEntryHash_eq, row.rendered]
    rfl
  · rw [computeEntryHash_eq, row'.rendered]
    exact congrArg (fun bytes => Except.ok (sha256Hex bytes)) joined
  · have type := agree.eventType
    rw [row.eventType, row'.eventType, JsValue.str.injEq] at type
    exact absurd (js_injective type) (by decide)

end Example

end EvidenceBundle

end VaidSuite.TypeScript
