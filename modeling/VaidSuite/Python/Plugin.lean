import VaidSuite.Python.BearersSpec

/-! The ADK plugin: presentations are registered for agents, and verified before an agent runs
and before a tool is called. -/
namespace VaidSuite.Python.Adk

structure ToolAuthorization where
  capability : PyStr
  resource : Option PyStr

structure Content where
  role : String
  parts : List PyStr

def denialContent (reason : PyStr) : Content := ⟨"model", [py "VAID DENIED: " ++ reason]⟩

def denialResponse (code : String) (reason : PyStr) : Dict :=
  [(py "error", .str (py "vaid_denied")), (py "code", .str (py code)), (py "reason", .str reason)]

structure VaidAuthPlugin where
  keys : TrustedIssuerMap
  revocation : List PyStr → RevocationStatus
  toolAuthorizations : List (PyStr × ToolAuthorization)
  presentations : List (PyStr × VaidPresentation)

namespace VaidAuthPlugin

def new (keys : TrustedIssuerMap) (revocation : List PyStr → RevocationStatus)
    (toolAuthorizations : List (PyStr × ToolAuthorization)) : VaidAuthPlugin :=
  ⟨keys, revocation, toolAuthorizations, []⟩

def register (plugin : VaidAuthPlugin) (agentName : PyStr) (presentation : VaidPresentation) :
    VaidAuthPlugin :=
  { plugin with presentations := InsertionMap.set agentName presentation plugin.presentations }

def unregister (plugin : VaidAuthPlugin) (agentName : PyStr) : VaidAuthPlugin :=
  { plugin with presentations := plugin.presentations.filter (fun e => e.1 ≠ agentName) }

variable [Libraries] (plugin : VaidAuthPlugin) (clock : UtcDatetime)

def verifyFor (agentName : PyStr) (requestedResource requestedCapability : Option PyStr) :
    Raises VerifyResult :=
  verifyPresentation (plugin.presentations.lookup agentName) plugin.keys plugin.revocation
    requestedResource requestedCapability none clock

def beforeAgentCallback (agentName : PyStr) : Raises (Option Content) := do
  let result ← plugin.verifyFor clock agentName none none
  if result.allowed then return none
  return (denialContent (py "agent " ++ reprStr agentName ++ py " not permitted to run: " ++
    result.reason))

/-- A tool that is not mapped is denied. -/
def beforeToolCallback (toolName agentName : PyStr) : Raises (Option Dict) :=
  match plugin.toolAuthorizations.lookup toolName with
  | none => .ok (denialResponse "unmapped_tool" (py "tool " ++ reprStr toolName ++
      py " has no entry in tool_authorizations — never defaulting to allow"))
  | some authz => do
    let result ← plugin.verifyFor clock agentName authz.resource (some authz.capability)
    if result.allowed then return none
    return (denialResponse result.code.value result.reason)

end VaidAuthPlugin

end VaidSuite.Python.Adk
