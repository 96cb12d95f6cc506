import Dcp.Error
import Dcp.Library.Bitset

/-!
Capability manifests: bitsets of tool, resource, prompt and extension ids, their
intersection and the membership checks of the deny-by-default boundary. Version and
id sets are modelled; the signature bytes and the byte image are not read by any
modelled function.
-/

namespace Dcp
open Library

structure CapabilityManifest where
  version : UInt16
  tools : Bitset 128
  resources : Bitset 16
  prompts : Bitset 8
  extensions : Bitset 1
  deriving DecidableEq

namespace CapabilityManifest

def maxTools : Nat := 8192
def maxResources : Nat := 1024
def maxPrompts : Nat := 512

def new (version : UInt16) : CapabilityManifest :=
  ⟨version, .empty, .empty, .empty, .empty⟩

/-- The ids both manifests grant. -/
def intersect (self other : CapabilityManifest) : CapabilityManifest where
  version := min self.version other.version
  tools := self.tools.inter other.tools
  resources := self.resources.inter other.resources
  prompts := self.prompts.inter other.prompts
  extensions := self.extensions.inter other.extensions

def negotiate (client server : CapabilityManifest) : CapabilityManifest :=
  client.intersect server

-- The bound of each setter is the size of its bitset, so a bitset's own range check
-- is the check the source makes.
def setTool (m : CapabilityManifest) (toolId : UInt16) : CapabilityManifest :=
  { m with tools := m.tools.set toolId.toNat }

def clearTool (m : CapabilityManifest) (toolId : UInt16) : CapabilityManifest :=
  { m with tools := m.tools.clear toolId.toNat }

def hasTool (m : CapabilityManifest) (toolId : UInt16) : Bool := m.tools.has toolId.toNat

def setResource (m : CapabilityManifest) (resourceId : UInt16) : CapabilityManifest :=
  { m with resources := m.resources.set resourceId.toNat }

def clearResource (m : CapabilityManifest) (resourceId : UInt16) : CapabilityManifest :=
  { m with resources := m.resources.clear resourceId.toNat }

def hasResource (m : CapabilityManifest) (resourceId : UInt16) : Bool :=
  m.resources.has resourceId.toNat

def setPrompt (m : CapabilityManifest) (promptId : UInt16) : CapabilityManifest :=
  { m with prompts := m.prompts.set promptId.toNat }

def clearPrompt (m : CapabilityManifest) (promptId : UInt16) : CapabilityManifest :=
  { m with prompts := m.prompts.clear promptId.toNat }

def hasPrompt (m : CapabilityManifest) (promptId : UInt16) : Bool := m.prompts.has promptId.toNat

def setExtension (m : CapabilityManifest) (id : UInt8) : CapabilityManifest :=
  { m with extensions := m.extensions.set id.toNat }

def clearExtension (m : CapabilityManifest) (id : UInt8) : CapabilityManifest :=
  { m with extensions := m.extensions.clear id.toNat }

def hasExtension (m : CapabilityManifest) (id : UInt8) : Bool := m.extensions.has id.toNat

def toolCount (m : CapabilityManifest) : Nat := m.tools.count
def resourceCount (m : CapabilityManifest) : Nat := m.resources.count
def promptCount (m : CapabilityManifest) : Nat := m.prompts.count
def extensionCount (m : CapabilityManifest) : Nat := m.extensions.count

/-- The ids of the bits that are set, word after word. -/
def idsOf {n : Nat} (words : Bitset n) : List UInt16 :=
  words.toList.zipIdx.flatMap fun (word, wordIdx) => (List.range 64).filterMap fun b =>
    if word &&& bit b ≠ 0 then some (UInt16.ofNat (wordIdx * 64 + b)) else none

def toolIds (m : CapabilityManifest) : List UInt16 := idsOf m.tools
def resourceIds (m : CapabilityManifest) : List UInt16 := idsOf m.resources
def promptIds (m : CapabilityManifest) : List UInt16 := idsOf m.prompts

/-- Require that a negotiated tool capability is present. -/
def requireTool (m : CapabilityManifest) (toolId : UInt16) : Except SecurityError Unit :=
  if m.hasTool toolId then .ok () else .error .insufficientCapabilities

end CapabilityManifest
end Dcp
