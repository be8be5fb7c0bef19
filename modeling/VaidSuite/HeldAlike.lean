import VaidSuite.HostReadings
import VaidSuite.Python.Presented
import VaidSuite.TrustDomains

/-! One document as the three hosts hold it. Member by member they hold the same text, the same
bytes and the same prefixes. -/
namespace VaidSuite

open Deserialize
open Python (PyValue py pyEq)
open TypeScript (JsValue js)

/-- The three hosts hold the document that this value is. -/
structure HeldAlike (vaid : Vaid) (dict : Python.Dict) (members : TypeScript.Members) (j : JsonValue) :
    Prop where
  rust : Deserialize.vaid j = some vaid
  python : HoldsObject py Python.jsonOf dict j.val
  typescript : HoldsObject js TypeScript.jsonOf members j.val

theorem Python.toByte_of_jsonOf {v : PyValue} {b : UInt8}
    (stands : jsonOf v = some (.ofNat b.toNat)) : toByte v = .ok b := by
  obtain ⟨rfl, byte⟩ := of_jsonOf stands
  rw [toByte, if_pos byte, Int.toNat_natCast, UInt8.ofNat_toNat]

theorem TypeScript.toByte_of_jsonOf [Runtime] {v : JsValue} {b : UInt8}
    (stands : jsonOf v = some (.ofNat b.toNat)) : toByte v = .ok b := by
  obtain ⟨c, same, rfl⟩ := of_jsonOf stands
  obtain ⟨-, -, -, denotes⟩ := Binary64.ofNat_byte c.toNat c.toNat_lt
  have codes : b = c := UInt8.toNat_inj.mp (Int.ofNat.inj (JsonNumber.int.inj same))
  rw [codes, JsValue.ofNat, toByte, denotes, UInt8.ofNat_toNat]

theorem Python.claimed_of_jsonOf {v : PyValue} {e : ScopeBoundaryEntry}
    (stands : jsonOf v = some e.toJson) :
    entryClaimedResource v = (VaidSuite.entryClaimedResource e).map py := by
  rw [ScopeBoundaryEntry.toJson_eq] at stands
  obtain ⟨held, rfl, holds⟩ := of_jsonOf stands
  have kind : Dict.get held "kind" = .str (py e.kind) := get_str holds rfl
  have value : (Dict.get held "value").asStr = e.value.val.asStr.map py :=
    asStr_of_jsonOf (jsonOf_get holds rfl)
  have named : (py e.kind == scopeKindPrefix) = decide (e.kind = VaidSuite.scopeKindPrefix) := by
    rw [beq_eq_decide]
    exact decide_eq_decide.mpr py_inj
  rw [entryClaimedResource, kind, value, pyEq_str, named, VaidSuite.entryClaimedResource]
  by_cases h : e.kind = VaidSuite.scopeKindPrefix <;> simp [h]

theorem TypeScript.claimed_of_jsonOf {v : JsValue} {e : ScopeBoundaryEntry}
    (stands : jsonOf v = some e.toJson) :
    entryClaimedResource v = (VaidSuite.entryClaimedResource e).map js := by
  rw [ScopeBoundaryEntry.toJson_eq] at stands
  obtain ⟨held, rfl, holds⟩ := of_jsonOf stands
  have kind : Members.get held "kind" = .str (js e.kind) := get_str holds rfl
  have value : (Members.get held "value").asStr = e.value.val.asStr.map js :=
    asStr_of_jsonOf (jsonOf_get holds rfl)
  have named : (js e.kind == scopeKindPrefix) = decide (e.kind = VaidSuite.scopeKindPrefix) := by
    rw [beq_eq_decide]
    exact decide_eq_decide.mpr js_inj
  rw [entryClaimedResource, kind, value, JsValue.strictEq_str, named, VaidSuite.entryClaimedResource]
  by_cases h : e.kind = VaidSuite.scopeKindPrefix <;> simp [h]

namespace HeldAlike

variable {vaid : Vaid} {dict : Python.Dict} {members : TypeScript.Members} {j : JsonValue}
variable (h : HeldAlike vaid dict members j)

include h

theorem reads : Reads j vaid := reads_of_vaid h.rust

theorem str {k s : String} (found : j.val.get k = some (.str s)) :
    dict.get k = .str (py s) ∧ members.get k = .str (js s) :=
  ⟨Python.get_str h.python found, TypeScript.get_str h.typescript found⟩

theorem field {k s : String} (read : Deserialize.field j k string = some s) :
    dict.get k = .str (py s) ∧ members.get k = .str (js s) :=
  h.str (get_of_field_always string_reproduces read)

theorem uuid {k : String} {p : PresentedUuid} (read : Deserialize.field j k presentedUuid = some p) :
    dict.get k = .str (py p.asPresented) ∧ members.get k = .str (js p.asPresented) :=
  h.str (get_of_field_always presentedUuid_reproduces read)

theorem arr {k : String} {js : List (Json String)} (found : j.val.get k = some (.arr js)) :
    (∃ items, dict.get k = .arr items ∧
      List.Forall₂ (fun v j => Python.jsonOf v = some j) items js) ∧
    ∃ items, members.get k = .arr items ∧
      List.Forall₂ (fun v j => TypeScript.jsonOf v = some j) items js :=
  ⟨Python.of_jsonOf (Python.jsonOf_get h.python found),
    TypeScript.of_jsonOf (TypeScript.jsonOf_get h.typescript found)⟩

theorem kernelSignature [Python.Libraries] [TypeScript.Runtime] :
    Python.toBytes (dict.get "kernel_signature") = .ok vaid.kernelSignature ∧
      TypeScript.numbersToBytes (members.get "kernel_signature") = .ok vaid.kernelSignature := by
  obtain ⟨⟨items, dictHolds, each⟩, items', membersHold, each'⟩ := h.arr
    (get_of_field (vec_reproduces u8_reproduces) h.reads.kernelSignature (fun _ _ _ _ _ _ => trivial))
  rw [List.forall₂_map_right_iff] at each each'
  rw [dictHolds, membersHold]
  exact ⟨Raising.mapM_ok_of_forall₂ (each.imp (fun _ _ => Python.toByte_of_jsonOf)),
    Raising.mapM_ok_of_forall₂ (each'.imp (fun _ _ => TypeScript.toByte_of_jsonOf))⟩

theorem capabilitySet :
    dict.get "capability_set" = .arr ((vaid.capabilitySet.map py).map .str) ∧
      members.get "capability_set" = .arr ((vaid.capabilitySet.map js).map .str) := by
  obtain ⟨⟨items, dictHolds, each⟩, items', membersHold, each'⟩ := h.arr
    (get_of_field (vec_reproduces string_reproduces) h.reads.capabilitySet (fun _ _ _ _ _ _ => trivial))
  rw [List.forall₂_map_right_iff] at each each'
  have texts : items = (vaid.capabilitySet.map py).map .str := by
    rw [List.map_map, ← List.forall₂_eq_eq_eq, List.forall₂_map_right_iff]
    exact each.imp (fun _ _ => Python.of_jsonOf)
  have texts' : items' = (vaid.capabilitySet.map js).map .str := by
    rw [List.map_map, ← List.forall₂_eq_eq_eq, List.forall₂_map_right_iff]
    exact each'.imp (fun _ _ => TypeScript.of_jsonOf)
  exact ⟨texts ▸ dictHolds, texts' ▸ membersHold⟩

theorem scopeBoundary (objects : ¬ HasPositionalEntry j) :
    (∃ items, dict.get "scope_boundary" = .arr items ∧
      Python.claimedResources items = (claimedResources vaid.scopeBoundary).map (List.map py)) ∧
    ∃ items, members.get "scope_boundary" = .arr items ∧
      TypeScript.claimedResources items = (claimedResources vaid.scopeBoundary).map (List.map js) := by
  obtain ⟨⟨items, dictHolds, each⟩, items', membersHold, each'⟩ :=
    h.arr (get_of_scope h.reads objects)
  rw [List.forall₂_map_right_iff] at each each'
  refine ⟨⟨items, dictHolds, ?_⟩, items', membersHold, ?_⟩
  · exact Containment.regions_of_forall₂ (each.imp (fun _ _ => Python.claimed_of_jsonOf))
  · exact Containment.regions_of_forall₂ (each'.imp (fun _ _ => TypeScript.claimed_of_jsonOf))

theorem sigVersion :
    pyEq (dict.get "sig_version") (.num (.int Python.vaidSigVersionV4)) =
        (vaid.sigVersion == vaidSigVersionV4) ∧
      (members.get "sig_version").strictEq (.ofNat TypeScript.vaidSigVersionV4) =
        (vaid.sigVersion == vaidSigVersionV4) := by
  by_cases absent : j.member? "sig_version" = none
  · have version : vaid.sigVersion = 0 := by
      have read := h.reads.sigVersion
      rw [fieldOr, absent] at read
      exact (Option.some.inj read).symm
    have missing := JsonValue.member?_eq_none absent
    rw [Python.Dict.get, h.python.of_get_none py_injective missing, TypeScript.Members.get,
      h.typescript.of_get_none js_injective missing, version]
    exact ⟨by simp [pyEq, vaidSigVersionV4], rfl⟩
  · have found := get_of_sigVersion h.reads absent
    have version : (vaid.sigVersion == vaidSigVersionV4) = (vaid.sigVersion.toNat == 4) := by
      rw [beq_eq_decide, beq_eq_decide]
      exact decide_eq_decide.mpr UInt8.toNat_inj.symm
    obtain ⟨dictHolds, -⟩ := Python.of_jsonOf (Python.jsonOf_get h.python found)
    obtain ⟨b, same, membersHold⟩ := TypeScript.of_jsonOf (TypeScript.jsonOf_get h.typescript found)
    have byte : vaid.sigVersion.toNat = b.toNat := Int.ofNat.inj (JsonNumber.int.inj same)
    rw [dictHolds, membersHold, version]
    refine ⟨?_, ?_⟩
    · simp only [pyEq, Python.numberEqValue, Python.numberEq, Python.vaidSigVersionV4, beq_eq_decide]
      exact decide_eq_decide.mpr (by omega)
    · rw [byte]
      exact Binary64.eq_four b.toNat b.toNat_lt

theorem parent {parent : Option PresentedUuid} (given : vaid.presentedParent = some parent) :
    dict.get "parent_vaid" = parent.elim .null (fun p => .str (py p.asPresented)) ∧
      members.get "parent_vaid" = parent.elim .null (fun p => .str (js p.asPresented)) := by
  have found := get_of_parent h.reads given
  have inPython := Python.of_jsonOf (Python.jsonOf_get h.python found)
  have inTypeScript := TypeScript.of_jsonOf (TypeScript.jsonOf_get h.typescript found)
  cases parent with
  | none => exact ⟨inPython, inTypeScript⟩
  | some p => exact ⟨inPython, inTypeScript⟩

theorem objects [Python.Libraries] (contract : Python.satisfiesContract dict = true) :
    ¬ HasPositionalEntry j := by
  rintro ⟨boundary, items, found, array, entry, listed, positional⟩
  have value := Python.jsonOf_get h.python (JsonValue.member?_eq_some found)
  rw [JsonValue.items?_eq_some array] at value
  obtain ⟨held, holds, each⟩ := Python.of_jsonOf value
  obtain ⟨v, member, stands⟩ := Raising.exists_of_forall₂ each (List.mem_map_of_mem listed)
  have formed := ((Python.Presented.mk dict contract).required
    (show ("scope_boundary", Python.isWellFormedScopeBoundary) ∈ Python.requiredMembers by
      simp [Python.requiredMembers])).2
  have wellFormed : Python.isWellFormedScopeBoundary (.arr held) = true := holds ▸ formed
  have isEntry := List.all_eq_true.mp wellFormed v member
  obtain ⟨inner, isArray⟩ := Option.ne_none_iff_exists'.mp positional
  rw [JsonValue.items?_eq_some isArray] at stands
  obtain ⟨_, rfl, -⟩ := Python.of_jsonOf stands
  cases isEntry

theorem payload (objects : ¬ HasPositionalEntry j) (signed : vaid.sigVersion = vaidSigVersionV4) :
    Python.jsonOf (.obj (InsertionMap.set (py "kernel_signature") .null dict)) =
        some (vaid.toJson.insert "kernel_signature" .null) ∧
      TypeScript.jsonOf (.obj (InsertionMap.set (js "kernel_signature") .null members)) =
        some (vaid.toJson.insert "kernel_signature" .null) := by
  have present : j.member? "sig_version" ≠ none := by
    intro absent
    have read := h.reads.sigVersion
    rw [fieldOr, absent, signed] at read
    cases read
  rw [toJson_of_objects h.rust present objects]
  exact ⟨Python.jsonOf_obj_iff.mpr (h.python.insert py_injective _ rfl),
    TypeScript.jsonOf_obj_iff.mpr (h.typescript.insert js_injective _ rfl)⟩

end HeldAlike

end VaidSuite
