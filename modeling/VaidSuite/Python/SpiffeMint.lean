import VaidSuite.Python.Possession

/-! The bind-by-reference SPIFFE mint: the SVID door, the possession proof, and the root mint of the
wrapped service as it is. -/
namespace VaidSuite.Python

structure SvidPresentation where
  leaf : Bytes
  intermediates : List Bytes
  possession : SvidPossession

structure SpiffeMintResult where
  vaid : Dict
  spiffeId : PyStr
  trustDomain : PyStr

/-- The audit sink is the one that the wrapped service records to. -/
structure SpiffeMint (L R A : Type) where
  mint : MintService L R A
  trustBundle : List Bytes
  trustDomain : PyStr
  consumedSvidNonces : Finset PyStr

/-- What one call reads from outside. -/
structure SpiffeEnv where
  mint : MintEnv
  chainNow : UtcDatetime
  possessionNow : UtcDatetime

namespace SpiffeMint

variable {L R A : Type}

def new (mint : MintService L R A) (trustBundle : List Bytes) (expectedTrustDomain : PyStr) :
    SpiffeMint L R A :=
  ⟨mint, trustBundle, expectedTrustDomain, ∅⟩

def wrapped : Program.Part (SpiffeMint L R A) (MintService L R A) where
  get := SpiffeMint.mint
  put mint s := { s with mint := mint }
  get_put _ _ := rfl
  put_put _ _ _ := rfl
  put_get _ := rfl

def nonces : Program.Part (SpiffeMint L R A) (Finset PyStr) where
  get := SpiffeMint.consumedSvidNonces
  put nonces s := { s with consumedSvidNonces := nonces }
  get_put _ _ := rfl
  put_put _ _ _ := rfl
  put_get _ := rfl

abbrev Call (L R A α : Type) := Fallible (SpiffeMint L R A) MintError α

def bindingDetails (vaidId : PyValue) (spiffeId trustDomain : PyStr) : Dict :=
  [(py "vaid_id", vaidId),
   (py "spiffe_id", .str spiffeId),
   (py "trust_domain", .str trustDomain),
   (py "binding", .str (py "by_reference"))]

def recordBinding [AuditSink A] (details : Dict) : Call L R A PUnit :=
  Fallible.atomically (fun s =>
    match AuditSink.record s.mint.audit (py "vaid_minted_with_external_identity") details with
    | (.ok (), audit) => (.ok ⟨⟩, { s with mint := { s.mint with audit := audit } })
    | (.error e, audit) => (.error e, { s with mint := { s.mint with audit := audit } }))

variable [Libraries] [PrivateKeys] [SvidLibraries] [LineageStore L] [AuditSink A]

omit [PrivateKeys] [LineageStore L] [AuditSink A] in
/-- Steps 1 to 3 of `mintRootWithSvid`: the SVID chain, the operating key, and the proof that the
holder controls the SVID's key. -/
def verifyHolder (env : SpiffeEnv) (seed : VaidSeed) (svid : SvidPresentation)
    (time : Option UtcDatetime) : Call L R A VerifiedSvid := do
  let s ← Fallible.read id
  let verified ← Fallible.ofExcept
    (verifySvidChain svid.leaf svid.intermediates s.trustBundle s.trustDomain time env.chainNow)
  let key ← Fallible.required seed.publicKeyDer (.identity
    (py "mint_root_with_svid: a BYO Ed25519 operating public_key_der is required - the SVID is " ++
      py "bound by reference; the VAID operates under its own Ed25519 key, never the SVID's"))
  Fallible.within nonces (verifySvidPossession env.possessionNow verified.leaf key svid.possession
    possessionFreshnessSecs)
  pure verified

/-- Every step before the wrapped mint refuses without having reached it. -/
def mintRootWithSvid (env : SpiffeEnv) (seed : VaidSeed) (svid : SvidPresentation) (pop : MintPop)
    (time : Option UtcDatetime) : Call L R A SpiffeMintResult := do
  let verified ← verifyHolder env seed svid time
  let vaid ← Fallible.within wrapped (MintService.mintRoot env.mint seed (some pop))
  let vaidId ← Fallible.ofExcept (raising (vaid.item "vaid_id"))
  recordBinding (bindingDetails vaidId verified.spiffeId verified.trustDomain)
  pure ⟨vaid, verified.spiffeId, verified.trustDomain⟩

end SpiffeMint

end VaidSuite.Python
