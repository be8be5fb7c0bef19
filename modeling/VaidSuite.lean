import VaidSuite.Attenuation
import VaidSuite.Attestation
import VaidSuite.AttestationJson
import VaidSuite.AuthenticityAlike
import VaidSuite.Base64
import VaidSuite.CallerBinding
import VaidSuite.Chain
import VaidSuite.ChainAgreement
import VaidSuite.ChainSteps
import VaidSuite.ClampFlag
import VaidSuite.CommonDocument
import VaidSuite.ConsentOrder
import VaidSuite.Crates
import VaidSuite.Deserialize
import VaidSuite.Document
import VaidSuite.DuplicateNames
import VaidSuite.DuplicateScan
import VaidSuite.Expiry
import VaidSuite.FromJson
import VaidSuite.GatesAlike
import VaidSuite.HeldAlike
import VaidSuite.HostReadings
import VaidSuite.HostValues
import VaidSuite.Identity
import VaidSuite.IssuanceSafety
import VaidSuite.Issuer
import VaidSuite.IssuerRuns
import VaidSuite.Json
import VaidSuite.Lib.Ancestry
import VaidSuite.Lib.Calendar
import VaidSuite.Lib.Containment
import VaidSuite.Lib.Guards
import VaidSuite.Lib.InsertionMap
import VaidSuite.Lib.Interleaving
import VaidSuite.Lib.JsonAscii
import VaidSuite.Lib.JsonNumeral
import VaidSuite.Lib.JsonReader
import VaidSuite.Lib.JsonRespell
import VaidSuite.Lib.JsonText
import VaidSuite.Lib.JsonUtf16
import VaidSuite.Lib.JsonWriter
import VaidSuite.Lib.Keyed
import VaidSuite.Lib.Ledger
import VaidSuite.Lib.Presentation
import VaidSuite.Lib.Program
import VaidSuite.Lib.Raising
import VaidSuite.Lib.RelyGuarantee
import VaidSuite.Lib.Returns
import VaidSuite.Lib.Rfc3339
import VaidSuite.Lib.Rounds
import VaidSuite.Lib.Runs
import VaidSuite.Lib.ShortestDecimal
import VaidSuite.Lib.SortedMap
import VaidSuite.LineageWalk
import VaidSuite.Mint
import VaidSuite.MintChain
import VaidSuite.MintEffects
import VaidSuite.MintNonces
import VaidSuite.MintRuns
import VaidSuite.MintSpec
import VaidSuite.MintTypes
import VaidSuite.PresentedList
import VaidSuite.Python.A2a
import VaidSuite.Python.A2aSpec
import VaidSuite.Python.Adk
import VaidSuite.Python.AdkSpec
import VaidSuite.Python.BearersSpec
import VaidSuite.Python.Descent
import VaidSuite.Python.FromJson
import VaidSuite.Python.IssuedBearers
import VaidSuite.Python.Issuer
import VaidSuite.Python.IssuerSpec
import VaidSuite.Python.IssuersExact
import VaidSuite.Python.JwtService
import VaidSuite.Python.Libraries
import VaidSuite.Python.Mcp
import VaidSuite.Python.McpSpec
import VaidSuite.Python.Mint
import VaidSuite.Python.MintRuns
import VaidSuite.Python.MintSpec
import VaidSuite.Python.PassThrough
import VaidSuite.Python.Plugin
import VaidSuite.Python.Possession
import VaidSuite.Python.PossessionSpec
import VaidSuite.Python.PublicKey
import VaidSuite.Python.Refusals
import VaidSuite.Python.SpiffeMint
import VaidSuite.Python.SpiffeRuns
import VaidSuite.Python.Standing
import VaidSuite.Python.Svid
import VaidSuite.Python.Totality
import VaidSuite.Repetition
import VaidSuite.Requests
import VaidSuite.Revocation
import VaidSuite.Scope
import VaidSuite.ScopeAgreement
import VaidSuite.ScopeKinds
import VaidSuite.Signatures
import VaidSuite.StandingAgreement
import VaidSuite.TrustDomains
import VaidSuite.TypeScript.Anchor
import VaidSuite.TypeScript.AuditChain
import VaidSuite.TypeScript.CanonicalJson
import VaidSuite.TypeScript.ContentHash
import VaidSuite.TypeScript.EntryHash
import VaidSuite.TypeScript.EvidenceBundle
import VaidSuite.TypeScript.ExitCode
import VaidSuite.TypeScript.FromJson
import VaidSuite.TypeScript.Issuer
import VaidSuite.TypeScript.Jcs
import VaidSuite.TypeScript.Mint
import VaidSuite.TypeScript.MintChains
import VaidSuite.TypeScript.MintPool
import VaidSuite.TypeScript.MintSpec
import VaidSuite.TypeScript.PackEnvelope
import VaidSuite.TypeScript.PlainJson
import VaidSuite.TypeScript.Presented
import VaidSuite.TypeScript.Roots
import VaidSuite.TypeScript.SigningDigest
import VaidSuite.TypeScript.Standing
import VaidSuite.TypeScript.Stringify
import VaidSuite.TypeScript.TextDecoder
import VaidSuite.TypeScript.Totality
import VaidSuite.UuidSpellings
import VaidSuite.Verify
import VaidSuite.WholeSeconds
