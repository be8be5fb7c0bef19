import VaidSuite.ChainSteps
import VaidSuite.HeldAlike
import VaidSuite.TypeScript.Presented

/-! Authenticity of one document in the three hosts, where hashing, canonicalization and
signatures are the same functions. -/
namespace VaidSuite

open Deserialize
open Python (PyValue py)
open TypeScript (JsValue js)

theorem py_append (s t : String) : py (s ++ t) = py s ++ py t := by
  rw [py, String.toList_append, List.map_append]
  rfl

theorem js_append (s t : String) : js (s ++ t) = js s ++ js t := by
  rw [js, String.toList_append, List.flatMap_append]
  rfl

theorem encode_py (s : String) : Python.encode (py s) = .ok (utf8 s) := by
  obtain ⟨chars, decoded, same⟩ := Option.map_eq_some_iff.mp (Python.textOf_py s)
  rw [Python.encode, decoded, ← same, utf8, String.toList_ofList]

theorem encode_js (s : String) : TypeScript.encode (js s) = utf8 s := encode_chars s.toList

theorem Python.jsonOf_str (s : String) : jsonOf (.str (py s)) = some (.str s) := by
  rw [jsonOf, textOf_py]
  rfl

theorem TypeScript.jsonOf_str (s : String) : jsonOf (.str (js s)) = some (.str s) := by
  rw [jsonOf, textOf_js]
  rfl

section Functions

variable [Crypto] [Python.Libraries] [TypeScript.Runtime]

structure SameFunctions : Prop where
  sha256_python : ∀ data, Python.Libraries.sha256 data = Crypto.sha256 data
  sha256_typescript : ∀ data, TypeScript.Runtime.sha256 data = Crypto.sha256 data
  canonicalize_python : ∀ v j, Python.jsonOf v = some j →
    Python.Libraries.canonicalize v = some (Crypto.jcs j)
  canonicalize_typescript : ∀ v j, TypeScript.jsonOf v = some j →
    TypeScript.Runtime.canonicalize v = some (Crypto.jcs j)
  /-- A public key has 32 bytes. -/
  key_length : ∀ key message signature, Crypto.ed25519Verify key message signature = true →
    key.length = 32
  verify_python : ∀ key message signature, key.length = 32 →
    Python.Libraries.ed25519Verify key signature message = Crypto.ed25519Verify key message signature
  verify_typescript : ∀ key message signature,
    TypeScript.Runtime.ed25519Verify signature message key = Crypto.ed25519Verify key message signature

namespace SameFunctions

variable (same : SameFunctions)

include same

theorem kernelKeyThumbprint_python (key : Bytes) :
    Python.kernelKeyThumbprint key = .ok (py (kernelKeyThumbprint key)) := by
  have spelled : ∀ data, Python.b64url data = py (String.ofList (base64Url data)) := by
    intro data
    rw [Python.b64url, py, String.toList_ofList]
  have members : Holds py Python.jsonOf
      [(py "crv", .str (py "Ed25519")), (py "kty", .str (py "OKP")),
        (py "x", .str (py (String.ofList (base64Url key))))]
      [("crv", .str "Ed25519"), ("kty", .str "OKP"), ("x", .str (String.ofList (base64Url key)))] :=
    .cons ⟨rfl, Python.jsonOf_str _⟩ (.cons ⟨rfl, Python.jsonOf_str _⟩
      (.cons ⟨rfl, Python.jsonOf_str _⟩ .nil))
  have distinct : ["crv", "kty", "x"].Nodup := by decide
  have jwk := same.canonicalize_python _ _ (Python.jsonOf_obj_iff.mpr ⟨_, members, distinct, rfl⟩)
  rw [Python.kernelKeyThumbprint, spelled, Python.dumps, jwk]
  show Except.ok (Python.thumbprintUriPrefix ++ _) = _
  rw [same.sha256_python, spelled, kernelKeyThumbprint, py_append]
  rfl

theorem kernelKeyThumbprint_typescript (key : Bytes) :
    TypeScript.kernelKeyThumbprint key = .ok (js (kernelKeyThumbprint key)) := by
  have spelled : ∀ data, TypeScript.b64url data = js (String.ofList (base64Url data)) := by
    intro data
    rw [TypeScript.b64url, js, String.toList_ofList]
  have members : Holds js TypeScript.jsonOf
      [(js "crv", .str (js "Ed25519")), (js "kty", .str (js "OKP")),
        (js "x", .str (js (String.ofList (base64Url key))))]
      [("crv", .str "Ed25519"), ("kty", .str "OKP"), ("x", .str (String.ofList (base64Url key)))] :=
    .cons ⟨rfl, TypeScript.jsonOf_str _⟩ (.cons ⟨rfl, TypeScript.jsonOf_str _⟩
      (.cons ⟨rfl, TypeScript.jsonOf_str _⟩ .nil))
  have distinct : ["crv", "kty", "x"].Nodup := by decide
  have jwk := same.canonicalize_typescript _ _
    (TypeScript.jsonOf_obj_iff.mpr ⟨_, members, distinct, rfl⟩)
  rw [TypeScript.kernelKeyThumbprint, spelled, jwk]
  show Except.ok (TypeScript.thumbprintUriPrefix ++ _) = _
  rw [same.sha256_typescript, spelled, kernelKeyThumbprint, js_append]
  rfl

theorem computeLineageHash_python (parent : Option VaidId) (agent : AgentId) :
    Python.computeLineageHash (parent.elim .null (fun p => .str (py (toString p))))
      (.str (py (toString agent))) = .ok (py (computeLineageHash parent agent)) := by
  have hashes : ∀ material : String,
      (Python.encode (py material) >>= fun m => pure (Python.hexdigest (Python.Libraries.sha256 m))) =
        (.ok (py (lowerHex (Crypto.sha256 (utf8 material)))) : Python.Raises Python.PyStr) := by
    intro material
    rw [encode_py, Raising.ok_bind, same.sha256_python]
    rfl
  cases parent with
  | none =>
    rw [computeLineageHash, ← hashes, py_append]
    rfl
  | some p =>
    rw [computeLineageHash, ← hashes, py_append, py_append]
    rfl

theorem computeLineageHash_typescript (parent : Option VaidId) (agent : AgentId) :
    TypeScript.computeLineageHash (parent.elim .null (fun p => .str (js (toString p))))
      (js (toString agent)) = .ok (js (computeLineageHash parent agent)) := by
  cases parent with
  | none =>
    show Except.ok (js (lowerHex (TypeScript.Runtime.sha256
      (TypeScript.encode (js "GENESIS:" ++ js (toString agent)))))) = _
    rw [← js_append, encode_js, same.sha256_typescript, computeLineageHash]
  | some p =>
    show Except.ok (js (lowerHex (TypeScript.Runtime.sha256
      (TypeScript.encode (js (toString p) ++ js ":" ++ js (toString agent)))))) = _
    rw [← js_append, ← js_append, encode_js, same.sha256_typescript, computeLineageHash]

variable {vaid : Vaid} {d : Python.Presented} {t : TypeScript.Presented} {j : JsonValue}
variable (h : HeldAlike vaid d.dict t.members j)

include h

theorem verifyKernelSignature_python (signed : vaid.sigVersion = vaidSigVersionV4) (key : Bytes) :
    decide (Python.verifyKernelSignature key d.dict = .ok ()) =
      Crypto.ed25519Verify key (canonicalVaidSigningBytes vaid) vaid.kernelSignature := by
  have item := (d.required (show ("kernel_signature", Python.isByteList) ∈ Python.requiredMembers by
    simp [Python.requiredMembers])).1
  have digest : Python.canonicalVaidSigningBytes d.dict = .ok (canonicalVaidSigningBytes vaid) := by
    rw [Python.canonicalVaidSigningBytes, Python.dumps,
      same.canonicalize_python _ _ (h.payload (h.objects d.contract) signed).1]
    exact congrArg Except.ok (same.sha256_python _)
  by_cases length : key.length = 32
  · have body : Python.verifyKernelSignature key d.dict =
        Python.ed25519Check key vaid.kernelSignature (canonicalVaidSigningBytes vaid) := by
      simp [Python.verifyKernelSignature, length, item, h.kernelSignature.1, digest]
    rw [body, Python.ed25519Check, same.verify_python _ _ _ length]
    cases Crypto.ed25519Verify key (canonicalVaidSigningBytes vaid) vaid.kernelSignature <;> rfl
  · have refused : Python.verifyKernelSignature key d.dict = .error .valueError := by
      simp only [Python.verifyKernelSignature, length, ne_eq, not_false_eq_true, if_true]
      rfl
    have unverified : Crypto.ed25519Verify key (canonicalVaidSigningBytes vaid) vaid.kernelSignature =
        false := Bool.eq_false_iff.mpr (fun verified => length (same.key_length _ _ _ verified))
    rw [refused, unverified]
    rfl

theorem verifyKernelSignature_typescript (signed : vaid.sigVersion = vaidSigVersionV4) (key : Bytes) :
    decide (TypeScript.verifyKernelSignature key t.members = .ok true) =
      Crypto.ed25519Verify key (canonicalVaidSigningBytes vaid) vaid.kernelSignature := by
  have digest : TypeScript.canonicalVaidSigningBytes t.members =
      .ok (canonicalVaidSigningBytes vaid) := by
    rw [TypeScript.canonicalVaidSigningBytes,
      same.canonicalize_typescript _ _ (h.payload (h.objects d.contract) signed).2]
    exact congrArg Except.ok (same.sha256_typescript _)
  have body : TypeScript.verifyKernelSignature key t.members =
      .ok (Crypto.ed25519Verify key (canonicalVaidSigningBytes vaid) vaid.kernelSignature) := by
    rw [TypeScript.verifyKernelSignature, h.kernelSignature.2, digest, ← same.verify_typescript]
    rfl
  rw [body]
  cases Crypto.ed25519Verify key (canonicalVaidSigningBytes vaid) vaid.kernelSignature <;> rfl

end SameFunctions

structure PlainIds (vaid : Vaid) : Prop where
  vaidId : vaid.presentedVaidId.asPresented = toString vaid.vaidId
  agentId : vaid.presentedAgentId.asPresented = toString vaid.agentId
  parent : ∀ p, vaid.presentedParent = some (some p) → p.asPresented = toString p.uuid

section Parents

variable {vaid : Vaid} {dict : Python.Dict} {members : TypeScript.Members} {j : JsonValue}
variable (h : HeldAlike vaid dict members j) (plain : PlainIds vaid)

include h plain

omit [Crypto] [Python.Libraries] [TypeScript.Runtime] in
theorem HeldAlike.plainParent {parent : Option PresentedUuid}
    (given : vaid.presentedParent = some parent) :
    dict.get "parent_vaid" = vaid.parentVaid.elim .null (fun p => .str (py (toString p))) ∧
      members.get "parent_vaid" = vaid.parentVaid.elim .null (fun p => .str (js (toString p))) := by
  have held := h.parent given
  rw [Vaid.parentVaid, given]
  cases parent with
  | none => exact held
  | some p =>
    have text : p.asPresented = toString (⟨p.uuid⟩ : VaidId) := plain.parent p given
    simp only [Option.elim_some, text] at held
    exact held

omit [Crypto] [Python.Libraries] [TypeScript.Runtime] in
theorem HeldAlike.lineageParent :
    dict.get "parent_vaid" = vaid.parentVaid.elim .null (fun p => .str (py (toString p))) ∧
      (members.get "parent_vaid").orElse .null =
        vaid.parentVaid.elim .null (fun p => .str (js (toString p))) := by
  cases given : vaid.presentedParent with
  | some parent =>
    obtain ⟨inPython, inTypeScript⟩ := h.plainParent plain given
    rw [inPython, inTypeScript]
    cases vaid.parentVaid <;> exact ⟨rfl, rfl⟩
  | none =>
    have absent : j.val.get "parent_vaid" = none := by
      have read := h.reads.parent
      rw [given] at read
      unfold fieldOr at read
      split at read
      · rename_i missing
        exact JsonValue.member?_eq_none missing
      · obtain ⟨_, _, none_⟩ := Option.map_eq_some_iff.mp read
        cases none_
    rw [Python.Dict.get, h.python.of_get_none py_injective absent, TypeScript.Members.get,
      h.typescript.of_get_none js_injective absent, Vaid.parentVaid, given]
    exact ⟨rfl, rfl⟩

end Parents

section Texts

variable {vaid : Vaid} {d : Python.Presented} {t : TypeScript.Presented} {j : JsonValue}
  (h : HeldAlike vaid d.dict t.members j) {k s : String}

include h

omit [Crypto] [TypeScript.Runtime] in
theorem HeldAlike.text_python (read : Deserialize.field j k string = some s) :
    d.text k = py s := by
  rw [Python.Presented.text, (h.field read).1]
  rfl

omit [Crypto] [TypeScript.Runtime] in
theorem HeldAlike.text_typescript (read : Deserialize.field j k string = some s) :
    t.text k = js s := by
  rw [TypeScript.Presented.text, (h.field read).2]
  rfl

end Texts

section Verdict

variable (same : SameFunctions) {vaid : Vaid} {d : Python.Presented} {t : TypeScript.Presented}
  {j : JsonValue} (h : HeldAlike vaid d.dict t.members j) (plain : PlainIds vaid)

include same h plain

theorem authenticity_python (key : Bytes) :
    d.authenticity key = verifyVaidAuthenticityGraded key vaid := by
  rw [verifyVaidAuthenticityGraded_eq, Python.Presented.authenticity]
  by_cases signed : vaid.sigVersion = vaidSigVersionV4
  · have domain : (!d.trustDomain.isEmpty && Python.isTrustDomain d.trustDomain) =
        isValidTrustDomain vaid.trustDomain := by
      rw [Python.Presented.trustDomain, h.text_python h.reads.trustDomain, isTrustDomain_py]
    have issuer : decide (Python.kernelKeyThumbprint key = .ok d.thumbprint) =
        (vaid.kernelKeyThumbprint == kernelKeyThumbprint key) := by
      rw [same.kernelKeyThumbprint_python, Python.Presented.thumbprint,
        h.text_python h.reads.kernelKeyThumbprint, beq_eq_decide]
      refine decide_eq_decide.mpr ?_
      rw [Except.ok.injEq, py_inj, eq_comm]
    have lineage : decide (Python.computeLineageHash (d.dict.get "parent_vaid") (.str d.agentId) =
        .ok (d.text "lineage_hash")) = verifyLineageHash vaid := by
      have agent : d.agentId = py (toString vaid.agentId) := by
        rw [Python.Presented.agentId, Python.Presented.text, (h.uuid h.reads.agentId).1, plain.agentId]
        rfl
      rw [agent, (h.lineageParent plain).1, same.computeLineageHash_python,
        h.text_python h.reads.lineageHash, verifyLineageHash, beq_eq_decide]
      refine decide_eq_decide.mpr ?_
      rw [Except.ok.injEq, py_inj]
    refine congrArg _ ?_
    rw [Python.Presented.authenticitySteps, authenticitySteps, h.sigVersion.1, domain, issuer,
      lineage, same.verifyKernelSignature_python h signed]
  · rw [Python.Presented.authenticitySteps, authenticitySteps, h.sigVersion.1,
      beq_eq_false_iff_ne.mpr signed]
    rfl

theorem authenticity_typescript (key : Bytes) :
    t.authenticity key (js (kernelKeyThumbprint key)) = verifyVaidAuthenticityGraded key vaid := by
  rw [verifyVaidAuthenticityGraded_eq, TypeScript.Presented.authenticity]
  by_cases signed : vaid.sigVersion = vaidSigVersionV4
  · have domain : (!t.trustDomain.isEmpty && TypeScript.isTrustDomain t.trustDomain) =
        isValidTrustDomain vaid.trustDomain := by
      rw [TypeScript.Presented.trustDomain, h.text_typescript h.reads.trustDomain, isTrustDomain_js]
    have issuer : (t.thumbprint == js (kernelKeyThumbprint key)) =
        (vaid.kernelKeyThumbprint == kernelKeyThumbprint key) := by
      rw [TypeScript.Presented.thumbprint, h.text_typescript h.reads.kernelKeyThumbprint, beq_eq_decide,
        beq_eq_decide]
      exact decide_eq_decide.mpr js_inj
    have lineage : t.lineageHolds = verifyLineageHash vaid := by
      have agent : t.agentId = js (toString vaid.agentId) := by
        rw [TypeScript.Presented.agentId, TypeScript.Presented.text, (h.uuid h.reads.agentId).2,
          plain.agentId]
        rfl
      rw [TypeScript.Presented.lineageHolds, agent, (h.lineageParent plain).2, same.computeLineageHash_typescript,
        h.text_typescript h.reads.lineageHash, verifyLineageHash, beq_eq_decide]
      refine decide_eq_decide.mpr ?_
      rw [Except.ok.injEq, js_inj]
    refine congrArg _ ?_
    rw [TypeScript.Presented.authenticitySteps, authenticitySteps, h.sigVersion.2, domain, issuer,
      lineage, same.verifyKernelSignature_typescript h signed]
  · rw [TypeScript.Presented.authenticitySteps, authenticitySteps, h.sigVersion.2,
      beq_eq_false_iff_ne.mpr signed]
    rfl

end Verdict

end Functions

end VaidSuite
