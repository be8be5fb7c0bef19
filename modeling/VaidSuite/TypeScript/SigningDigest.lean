import VaidSuite.Lib.SortedMap
import VaidSuite.TypeScript.Chain
import VaidSuite.TypeScript.Jcs

/-! What a signature over an object covers: every member but the signature, up to what the canonical
form leaves out. -/
namespace VaidSuite.TypeScript

def shown (d : Members) (name : JsStr) : Option JsValue :=
  ((d.lookup name).filter (fun v => !v.isUndefined)).map (fun v => v.pruned.normal)

theorem lookup_defined {d : Members} (distinct : (d.map Prod.fst).Nodup) (name : JsStr) :
    (d.filter (fun m => !m.2.isUndefined)).lookup name =
      (d.lookup name).filter (fun v => !v.isUndefined) := by
  induction d with
  | nil => rfl
  | cons m d ih =>
    obtain ⟨other, v⟩ := m
    rw [List.map_cons, List.nodup_cons] at distinct
    have rest := ih distinct.2
    by_cases here : name = other
    · subst here
      have absent : d.lookup name = none := by
        rw [List.lookup_eq_none_iff]
        intro m member
        simpa using fun same => distinct.1 (List.mem_map.mpr ⟨m, member, same.symm⟩)
      rw [List.filter_cons, List.lookup_cons_self, Option.filter_some]
      cases defined : v.isUndefined with
      | true => simpa [defined, absent] using rest
      | false => simp
    · rw [List.filter_cons, SortedMap.lookup_cons_ne v d here]
      cases defined : v.isUndefined with
      | true => simpa [defined] using rest
      | false => simpa [defined, SortedMap.lookup_cons_ne v _ here] using rest

theorem normal_pruned_iff {d d' : Members} (distinct : (d.map Prod.fst).Nodup)
    (distinct' : (d'.map Prod.fst).Nodup) :
    (JsValue.obj d).pruned.normal = (JsValue.obj d').pruned.normal ↔ ∀ name, shown d name = shown d' name := by
  have names : ∀ {d : Members}, (d.map Prod.fst).Nodup → ((prunedMembers d).map Prod.fst).Nodup := by
    intro d distinct
    rw [prunedMembers_eq, List.map_map]
    exact distinct.sublist (List.filter_sublist.map _)
  have members : ∀ {d : Members}, (d.map Prod.fst).Nodup → ∀ name,
      ((prunedMembers d).lookup name).map JsValue.normal = shown d name := by
    intro d distinct name
    rw [prunedMembers_eq, InsertionMap.lookup_map, lookup_defined distinct, Option.map_map]
    rfl
  rw [JsValue.pruned, JsValue.pruned, normal_obj_iff (names distinct) (names distinct')]
  exact forall_congr' (fun name => by rw [members distinct, members distinct'])

/-- An object as it is signed, its signature `null`. -/
def unsigned (signature : JsStr) (d : Members) : JsValue := .obj (InsertionMap.set signature .null d)

theorem distinct_unsigned {d : Members} (distinct : (JsValue.obj d).Distinct) (signature : JsStr) :
    (unsigned signature d).Distinct := by
  rw [JsValue.Distinct, distinctMembers_iff] at distinct
  rw [unsigned, JsValue.Distinct, distinctMembers_iff]
  refine ⟨InsertionMap.nodup_set distinct.1 _ _, fun m member => ?_⟩
  rcases InsertionMap.mem_set member with rfl | old
  · trivial
  · exact distinct.2 m old

theorem unsigned_alike {d d' : Members} (distinct : (JsValue.obj d).Distinct)
    (distinct' : (JsValue.obj d').Distinct) (signature : JsStr) :
    (unsigned signature d).pruned.normal = (unsigned signature d').pruned.normal ↔
      ∀ name ≠ signature, shown d name = shown d' name := by
  have names := distinct_unsigned distinct signature
  have names' := distinct_unsigned distinct' signature
  rw [unsigned, JsValue.Distinct] at names names'
  rw [unsigned, unsigned, normal_pruned_iff names.1 names'.1]
  have own : ∀ d : Members, shown (InsertionMap.set signature .null d) signature = some .null := by
    intro d
    rw [shown, InsertionMap.lookup_set_self]
    rfl
  have other : ∀ (d : Members) {name : JsStr}, name ≠ signature →
      shown (InsertionMap.set signature .null d) name = shown d name := by
    intro d name other
    rw [shown, InsertionMap.lookup_set_ne other, shown]
  constructor
  · intro same name distinct
    rw [← other d distinct, ← other d' distinct]
    exact same name
  · intro same name
    by_cases here : name = signature
    · rw [here, own, own]
    · rw [other d here, other d' here]
      exact same name here

section Signatures

variable [Runtime]

def Runtime.Canonicalizes : Prop := ∀ v, Runtime.canonicalize v = (TypeScript.canonicalize v).toOption

/-- The digest of two objects without their signatures is no collision, and the signature of the
first verifies for no second digest. -/
structure Unforged (kernelPublicKey : Bytes) (d d' : Members) : Prop where
  collisionFree : ∀ bytes bytes', canonicalize (unsigned (js "kernel_signature") d) = .ok bytes →
    canonicalize (unsigned (js "kernel_signature") d') = .ok bytes' →
    Runtime.sha256 bytes = Runtime.sha256 bytes' → bytes = bytes'
  binds : ∀ signature digest digest', numbersToBytes (d.get "kernel_signature") = .ok signature →
    canonicalVaidSigningBytes d = .ok digest → canonicalVaidSigningBytes d' = .ok digest' →
    Runtime.ed25519Verify signature digest kernelPublicKey = true →
    Runtime.ed25519Verify signature digest' kernelPublicKey = true → digest = digest'

theorem canonicalVaidSigningBytes_eq (canonicalizes : Runtime.Canonicalizes) {d : Members} {digest : Bytes} :
    canonicalVaidSigningBytes d = .ok digest ↔
      ∃ bytes, canonicalize (unsigned (js "kernel_signature") d) = .ok bytes ∧
        Runtime.sha256 bytes = digest := by
  have written : Runtime.canonicalize (.obj (InsertionMap.set (js "kernel_signature") .null d)) =
      (canonicalize (unsigned (js "kernel_signature") d)).toOption := canonicalizes _
  rw [canonicalVaidSigningBytes, written]
  cases canonicalize (unsigned (js "kernel_signature") d) with
  | error e => simp [Except.toOption]
  | ok bytes => simp [Except.toOption]

theorem of_verifyKernelSignature {kernelPublicKey : Bytes} {d : Members}
    (verified : verifyKernelSignature kernelPublicKey d = .ok true) : ∃ signature digest,
      numbersToBytes (d.get "kernel_signature") = .ok signature ∧
        canonicalVaidSigningBytes d = .ok digest ∧
        Runtime.ed25519Verify signature digest kernelPublicKey = true := by
  rw [verifyKernelSignature] at verified
  obtain ⟨signature, read, verified⟩ := Raising.of_bind_eq_ok verified
  obtain ⟨digest, signed, verified⟩ := Raising.of_bind_eq_ok verified
  exact ⟨signature, digest, read, signed, Except.ok.inj verified⟩

/-- The signature of a document verifies on another document exactly where every other member shows
alike: it covers them all, at any depth, and whatever their names. -/
theorem verifyKernelSignature_covers (canonicalizes : Runtime.Canonicalizes) {kernelPublicKey : Bytes}
    {d d' : Members} (distinct : (JsValue.obj d).Distinct) (distinct' : (JsValue.obj d').Distinct)
    (same : d'.get "kernel_signature" = d.get "kernel_signature")
    (unforged : Unforged kernelPublicKey d d')
    (verified : verifyKernelSignature kernelPublicKey d = .ok true) :
    verifyKernelSignature kernelPublicKey d' = .ok true ↔
      ∀ name ≠ js "kernel_signature", shown d' name = shown d name := by
  obtain ⟨signature, digest, read, signed, valid⟩ := of_verifyKernelSignature verified
  obtain ⟨bytes, written, hashed⟩ := (canonicalVaidSigningBytes_eq canonicalizes).mp signed
  have alike := canonicalize_eq_iff (distinct_unsigned distinct (js "kernel_signature"))
    (distinct_unsigned distinct' (js "kernel_signature")) written
  rw [unsigned_alike distinct' distinct] at alike
  rw [← alike]
  constructor
  · intro verified'
    obtain ⟨signature', digest', read', signed', valid'⟩ := of_verifyKernelSignature verified'
    rw [same, read] at read'
    cases read'
    obtain ⟨bytes', written', hashed'⟩ := (canonicalVaidSigningBytes_eq canonicalizes).mp signed'
    have digests := unforged.binds signature digest digest' read signed signed' valid valid'
    rw [written', unforged.collisionFree bytes bytes' written written' (by rw [hashed, hashed', digests])]
  · intro written'
    have signed' := (canonicalVaidSigningBytes_eq canonicalizes).mpr ⟨bytes, written', hashed⟩
    rw [verifyKernelSignature, same, read, Raising.ok_bind, signed', Raising.ok_bind, valid]
    rfl

end Signatures

section Examples

/-- A digest that is the text, and signatures that are the digest. -/
@[reducible] def Runtime.literal : Runtime where
  sha256 bytes := bytes
  canonicalize v := (TypeScript.canonicalize v).toOption
  ed25519Verify signature message _ := decide (signature = message)
  dateParse _ := none
  toText _ := none
  stringify _ := []
  syntaxError _ := []
  toNumber _ := none
  bytesOfArrayLike _ := none

attribute [local instance] Runtime.literal

/-- A document of one member, `a`, with the signature of the one in which it is `true`. -/
def flagged (a : Bool) : Members :=
  [(js "a", .bool a), (js "kernel_signature",
    .arr ((encode (js "\x7b\"a\":true,\"kernel_signature\":null\x7d")).map (fun b => .ofNat b.toNat)))]

theorem flagged_distinct (a : Bool) : (JsValue.obj (flagged a)).Distinct := by
  refine ⟨by show [js "a", js "kernel_signature"].Nodup; decide, trivial, ?_, trivial⟩
  rw [JsValue.Distinct, distinctItems_iff]
  intro v member
  obtain ⟨b, _, rfl⟩ := List.mem_map.mp member
  trivial

/-- The signature verifies, and not on the document whose member is flipped. -/
theorem verifyKernelSignature_covers_flagged : verifyKernelSignature [] (flagged true) = .ok true ∧
    verifyKernelSignature [] (flagged false) ≠ .ok true := by
  have verified : verifyKernelSignature [] (flagged true) = .ok true := by decide +kernel
  have unforged : Unforged [] (flagged true) (flagged false) :=
    ⟨fun _ _ _ _ same => same, fun _ _ _ _ _ _ valid valid' =>
      (of_decide_eq_true valid).symm.trans (of_decide_eq_true valid')⟩
  refine ⟨verified, fun verified' => ?_⟩
  have alike := (verifyKernelSignature_covers (fun _ => rfl) (flagged_distinct true) (flagged_distinct false)
    rfl unforged verified).mp verified' (js "a") (by decide)
  exact absurd (Option.some.inj alike) (by rintro ⟨⟩)

end Examples

end VaidSuite.TypeScript
