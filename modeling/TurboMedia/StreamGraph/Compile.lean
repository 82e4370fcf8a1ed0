import TurboMedia.Lib.TopologicalOrder
import TurboMedia.Lib.Words

/-!
# The stream-graph compiler

Model of `turbo_streamgraph.c`: the descriptors as the caller passes them, the
three passes of `tm_sg_compile` and the program it returns.

Pointers that may be null are options or null slices; memory is always granted.
The 32-bit numbers of the descriptors are natural numbers; the one place where
the code counts down is done modulo the word size.
-/

namespace TurboMedia.StreamGraph

/-- A C string behind a pointer. -/
abbrev Name :=
  Option (List UInt8)

/-- A pointer with a count: null with any count, or an array of that many elements. -/
inductive Slice (α : Type) where
  | null (count : ℕ)
  | array (elements : List α)

namespace Slice

variable {α : Type}

def count : Slice α → ℕ
  | null n => n
  | array elements => elements.length

def elements : Slice α → List α
  | null _ => []
  | array elements => elements

def isNull : Slice α → Bool
  | null _ => true
  | array _ => false

end Slice

inductive Status where
  | ok
  | einval
  | eversion
  | elimit
  | enomem
  | eduplicate
  | enotfound
  | etype
  | eformat
  | ecycle
  | egraph
deriving DecidableEq

/-- `tm_sg_port_v1`. -/
structure Port where
  size : ℕ
  version : ℕ
  name : Name
  direction : ℕ
  kind : ℕ
  formatId : ℕ
  memoryDomain : ℕ
  timebaseNum : ℕ
  timebaseDen : ℕ
  schemaId : ℕ

/-- `tm_sg_node_v1`. -/
structure Node where
  size : ℕ
  version : ℕ
  id : Name
  kind : ℕ
  ports : Slice Port

/-- `tm_sg_edge_v1`. -/
structure Edge where
  size : ℕ
  version : ℕ
  sourceNode : Name
  sourcePort : Name
  targetNode : Name
  targetPort : Name

/-- `tm_sg_limits_v1`. -/
structure Limits where
  size : ℕ
  version : ℕ
  maxNodes : ℕ
  maxEdges : ℕ
  maxPortsPerNode : ℕ
  maxFanout : ℕ

/-- `tm_sg_diagnostic_v1`.  An index that names nothing is `none`. -/
structure Diagnostic where
  size : ℕ
  version : ℕ
  status : Status
  nodeIndex : Option ℕ
  edgeIndex : Option ℕ
  message : String

/-- `tm_sg_program`.  The arrays of the nodes are copies. -/
structure Program where
  nodes : List Node
  edges : List Edge
  order : List ℕ

/-- `TM_SG_ABI_VERSION`. -/
def abiVersion : ℕ := 1

def sizeofPort : ℕ := 48
def sizeofNode : ℕ := 32
def sizeofEdge : ℕ := 40
def sizeofLimits : ℕ := 24
def sizeofDiagnostic : ℕ := 180

/-- `TM_SG_SOURCE`, `TM_SG_SINK`. -/
def kindSource : ℕ := 1
def kindSink : ℕ := 3

/-- `TM_SG_INPUT`, `TM_SG_OUTPUT`. -/
def directionInput : ℕ := 1
def directionOutput : ℕ := 2

/-- `TM_SG_BYTE_STREAM`, `TM_SG_OBSERVATION`. -/
def kindByteStream : ℕ := 1
def kindObservation : ℕ := 6

/-- `TM_SG_MEMORY_GPU`. -/
def memoryGpu : ℕ := 2

/-- `TM_SG_MAX_NODES` and the other limits of the limits. -/
def maxNodes : ℕ := 128
def maxEdges : ℕ := 512
def maxPortsPerNode : ℕ := 32
def maxFanout : ℕ := 32

/-- `TM_SG_NAME_LIMIT`. -/
def nameLimit : ℕ := 63

/-- A failure, as `fail` writes it into the diagnostic. -/
structure Failure where
  status : Status
  node : Option ℕ
  edge : Option ℕ
  message : String

def idChar (c : UInt8) : Bool :=
  decide ((97 ≤ c.toNat ∧ c.toNat ≤ 122) ∨ (65 ≤ c.toNat ∧ c.toNat ≤ 90) ∨
    (48 ≤ c.toNat ∧ c.toNat ≤ 57)) || c == 95 || c == 45 || c == 46

/-- `valid_id`. -/
def validId (s : Name) : Bool :=
  match s with
  | none => false
  | some s => s ≠ [] && decide (s.length ≤ nameLimit) && s.all idChar

def portValid (v : Port) : Bool :=
  decide (v.size = sizeofPort) && validId v.name &&
    decide (v.direction = directionInput ∨ v.direction = directionOutput) &&
    decide (kindByteStream ≤ v.kind) && decide (v.kind ≤ kindObservation) &&
    decide (v.memoryDomain ≤ memoryGpu) &&
    decide (v.timebaseNum ≠ 0 ↔ v.timebaseDen ≠ 0) &&
    (decide (v.kind ≠ kindObservation) || decide (v.schemaId ≠ 0))

/-- The direction of a port fits the kind of its node. -/
def directionFits (source : Node) (v : Port) : Bool :=
  !((decide (source.kind = kindSource) && decide (v.direction ≠ directionOutput)) ||
    (decide (source.kind = kindSink) && decide (v.direction ≠ directionInput)))

def nodeValid (source : Node) : Bool :=
  decide (source.size = sizeofNode) && validId source.id &&
    decide (kindSource ≤ source.kind) && decide (source.kind ≤ kindSink) &&
    !source.ports.isNull && decide (source.ports.count ≠ 0) &&
    decide (source.ports.count ≤ maxPortsPerNode)

def edgeValid (v : Edge) : Bool :=
  decide (v.size = sizeofEdge) && validId v.sourceNode && validId v.sourcePort &&
    validId v.targetNode && validId v.targetPort

/-- The loop of `clone_descriptors` over the ports of node `i`. -/
def clonePorts (i : ℕ) (source : Node) : List Port → List Port → Except Failure Unit
  | _, [] => .ok ()
  | earlier, v :: rest =>
    if v.version ≠ abiVersion then .error ⟨.eversion, some i, none, "port version mismatch"⟩
    else if portValid v = false then .error ⟨.einval, some i, none, "invalid port descriptor"⟩
    else if directionFits source v = false then
      .error ⟨.egraph, some i, none, "node kind/port direction mismatch"⟩
    else if v.name ∈ earlier.map Port.name then
      .error ⟨.eduplicate, some i, none, "duplicate port"⟩
    else clonePorts i source (earlier ++ [v]) rest

/-- The loop of `clone_descriptors` over the nodes. -/
def cloneNodes : List Node → List Node → Except Failure Unit
  | _, [] => .ok ()
  | earlier, source :: rest =>
    if source.version ≠ abiVersion then
      .error ⟨.eversion, some earlier.length, none, "node version mismatch"⟩
    else if nodeValid source = false then
      .error ⟨.einval, some earlier.length, none, "invalid node descriptor"⟩
    else if source.id ∈ earlier.map Node.id then
      .error ⟨.eduplicate, some earlier.length, none, "duplicate node"⟩
    else
      match clonePorts earlier.length source [] source.ports.elements with
      | .error e => .error e
      | .ok _ => cloneNodes (earlier ++ [source]) rest

/-- The loop of `clone_descriptors` over the edges. -/
def cloneEdges : ℕ → List Edge → Except Failure Unit
  | _, [] => .ok ()
  | i, v :: rest =>
    if v.version ≠ abiVersion then .error ⟨.eversion, none, some i, "edge version mismatch"⟩
    else if edgeValid v = false then .error ⟨.einval, none, some i, "invalid edge descriptor"⟩
    else cloneEdges (i + 1) rest

/-- `clone_descriptors`. -/
def cloneDescriptors (nodes : List Node) (edges : List Edge) : Except Failure Unit :=
  match cloneNodes [] nodes with
  | .error e => .error e
  | .ok _ => cloneEdges 0 edges

/-- `find_node`. -/
def findNode (nodes : List Node) (id : Name) : Option ℕ :=
  nodes.findIdx? (fun n => n.id = id)

/-- `find_port`. -/
def findPort (n : Node) (id : Name) (direction : ℕ) : Option ℕ :=
  n.ports.elements.findIdx? (fun v => v.direction = direction ∧ v.name = id)

/-- The two ports carry the same kind of data. -/
def sameType (a b : Port) : Bool :=
  decide (a.kind = b.kind) && decide (a.schemaId = b.schemaId)

/-- The two ports need no conversion between them. -/
def sameFormat (a b : Port) : Bool :=
  !((decide (a.formatId ≠ 0) && decide (b.formatId ≠ 0) && decide (a.formatId ≠ b.formatId)) ||
    (decide (a.memoryDomain ≠ 0) && decide (b.memoryDomain ≠ 0) &&
      decide (a.memoryDomain ≠ b.memoryDomain)) ||
    (decide (a.timebaseNum ≠ 0) && decide (b.timebaseNum ≠ 0) &&
      decide (a.timebaseNum * b.timebaseDen ≠ b.timebaseNum * a.timebaseDen)))

/-- Where an edge begins and ends: node and port of either side. -/
structure Ends where
  sourceNode : ℕ
  sourcePort : ℕ
  targetNode : ℕ
  targetPort : ℕ

/-- The checks on edge `i` before its ports are counted. -/
def resolveEdge (nodes : List Node) (i : ℕ) (e : Edge) : Except Failure Ends :=
  match findNode nodes e.sourceNode, findNode nodes e.targetNode with
  | some sn, some tn =>
    if sn = tn then .error ⟨.ecycle, none, some i, "self edge"⟩
    else
      match nodes[sn]?, nodes[tn]? with
      | some source, some target =>
        match findPort source e.sourcePort directionOutput,
          findPort target e.targetPort directionInput with
        | some sp, some tp =>
          match source.ports.elements[sp]?, target.ports.elements[tp]? with
          | some a, some b =>
            if sameType a b = false then
              .error ⟨.etype, none, some i, "Port type/schema mismatch"⟩
            else if sameFormat a b = false then
              .error ⟨.eformat, none, some i, "explicit media conversion required"⟩
            else .ok ⟨sn, sp, tn, tp⟩
          | _, _ => .error ⟨.enotfound, none, some i, "port or direction missing"⟩
        | _, _ => .error ⟨.enotfound, none, some i, "port or direction missing"⟩
      | _, _ => .error ⟨.enotfound, none, some i, "edge node missing"⟩
  | _, _ => .error ⟨.enotfound, none, some i, "edge node missing"⟩

/-- The arrays `in`, `out` and `degrees`. -/
structure Counts where
  ingress : ℕ → ℕ
  fanout : ℕ → ℕ
  degrees : ℕ → ℕ

def emptyCounts : Counts :=
  ⟨fun _ => 0, fun _ => 0, fun _ => 0⟩

/-- Place of a port in `in` and `out`. -/
def slot (node port : ℕ) : ℕ :=
  node * maxPortsPerNode + port

def increment (counts : ℕ → ℕ) (k : ℕ) : ℕ → ℕ :=
  Function.update counts k (counts k + 1)

/-- The loop of `validate_topology` over the edges. -/
def edgeLoop (nodes : List Node) (maxFanout : ℕ) :
    ℕ → Counts → List Edge → Except Failure Counts
  | _, counts, [] => .ok counts
  | i, counts, e :: rest =>
    match resolveEdge nodes i e with
    | .error f => .error f
    | .ok ends =>
      let ingress := increment counts.ingress (slot ends.targetNode ends.targetPort)
      let fanout := increment counts.fanout (slot ends.sourceNode ends.sourcePort)
      if ingress (slot ends.targetNode ends.targetPort) > 1 ∨
          fanout (slot ends.sourceNode ends.sourcePort) > maxFanout then
        .error ⟨.elimit, none, some i, "port ingress/fanout exceeded"⟩
      else
        edgeLoop nodes maxFanout (i + 1)
          ⟨ingress, fanout, increment counts.degrees ends.targetNode⟩ rest

/-- Number of edges at port `j` of node `i`. -/
def hits (counts : Counts) (i j : ℕ) (v : Port) : ℕ :=
  if v.direction = directionInput then counts.ingress (slot i j) else counts.fanout (slot i j)

/-- The loop of `validate_topology` over the ports of the nodes. -/
def connectedLoop (counts : Counts) : ℕ → List Node → Except Failure Unit
  | _, [] => .ok ()
  | i, n :: rest =>
    if (n.ports.elements.zipIdx).any (fun (v, j) => decide (hits counts i j v = 0)) then
      .error ⟨.egraph, some i, none, "unconnected declared Port"⟩
    else connectedLoop counts (i + 1) rest

/-- The inner loop of the elimination: the targets of the edges out of one node. -/
def release (nodes : List Node) (id : Name) : List Edge → (ℕ → ℕ) → ℕ → ℕ
  | [], degrees => degrees
  | e :: rest, degrees =>
    if e.sourceNode = id then
      match findNode nodes e.targetNode with
      | none => release nodes id rest degrees
      | some ti => release nodes id rest (Function.update degrees ti (Words.pred32 (degrees ti)))
    else release nodes id rest degrees

/-- The loop of `validate_topology` that fills `order`, with the nodes left to take. -/
def orderLoop (nodes : List Node) (edges : List Edge) :
    ℕ → (ℕ → Bool) → (ℕ → ℕ) → List ℕ → Except Failure (List ℕ)
  | 0, _, _, order => .ok order
  | left + 1, seen, degrees, order =>
    match (List.range nodes.length).find? (fun j => !seen j && decide (degrees j = 0)) with
    | none => .error ⟨.ecycle, none, none, "directed cycle"⟩
    | some next =>
      orderLoop nodes edges left (Function.update seen next true)
        (release nodes ((nodes[next]?).bind Node.id) edges degrees) (order ++ [next])

/-- `validate_topology`. -/
def validateTopology (nodes : List Node) (edges : List Edge) (maxFanout : ℕ) :
    Except Failure (List ℕ) :=
  match edgeLoop nodes maxFanout 0 emptyCounts edges with
  | .error f => .error f
  | .ok counts =>
    match connectedLoop counts 0 nodes with
    | .error f => .error f
    | .ok _ =>
      if nodes.countP (fun n => n.kind = kindSource) = 0 ∨
          nodes.countP (fun n => n.kind = kindSink) = 0 then
        .error ⟨.egraph, none, none, "Source and Sink required"⟩
      else orderLoop nodes edges nodes.length (fun _ => false) counts.degrees []

/-- The limits that are used without the caller's. -/
def defaultLimits : Limits :=
  ⟨sizeofLimits, abiVersion, 32, 64, 16, 8⟩

/-- The checks on the limits, and the limits in force. -/
def checkLimits : Option Limits → Except Failure Limits
  | none => .ok defaultLimits
  | some limits =>
    if limits.version ≠ abiVersion then .error ⟨.eversion, none, none, "limits version mismatch"⟩
    else if limits.size ≠ sizeofLimits ∨ limits.maxNodes = 0 ∨ limits.maxEdges = 0 ∨
        limits.maxPortsPerNode = 0 ∨ limits.maxFanout = 0 ∨ limits.maxNodes > maxNodes ∨
        limits.maxEdges > maxEdges ∨ limits.maxPortsPerNode > maxPortsPerNode ∨
        limits.maxFanout > maxFanout then
      .error ⟨.elimit, none, none, "invalid limits"⟩
    else .ok limits

/-- The part of `tm_sg_compile` after its arguments are accepted. -/
def compileGraph (nodes : Slice Node) (edges : Slice Edge) (limits : Option Limits) :
    Except Failure Program :=
  match checkLimits limits with
  | .error f => .error f
  | .ok limits =>
    if nodes.isNull = true ∨ edges.isNull = true ∨ nodes.count = 0 ∨ edges.count = 0 ∨
        nodes.count > limits.maxNodes ∨ edges.count > limits.maxEdges then
      .error ⟨.elimit, none, none, "graph limit exceeded"⟩
    else
      match nodes.elements.findIdx? (fun n => n.ports.count > limits.maxPortsPerNode) with
      | some i => .error ⟨.elimit, some i, none, "node port limit"⟩
      | none =>
        match cloneDescriptors nodes.elements edges.elements with
        | .error f => .error f
        | .ok _ =>
          match validateTopology nodes.elements edges.elements limits.maxFanout with
          | .error f => .error f
          | .ok order => .ok ⟨nodes.elements, edges.elements, order⟩

/-- What a call leaves behind: its result, `*out` and the diagnostic. -/
structure Outcome where
  status : Status
  out : Option Program
  diagnostic : Option Diagnostic

/-- `tm_sg_compile`.  `out` is `none` for a null pointer, else what it points to. -/
def compile (nodes : Slice Node) (edges : Slice Edge) (limits : Option Limits)
    (out : Option (Option Program)) (diagnostic : Option Diagnostic) : Outcome :=
  match out with
  | none => ⟨.einval, none, diagnostic⟩
  | some (some program) => ⟨.einval, some program, diagnostic⟩
  | some none =>
    if diagnostic.any (fun d => d.size ≠ sizeofDiagnostic || d.version ≠ abiVersion) then
      ⟨.einval, none, diagnostic⟩
    else
      match compileGraph nodes edges limits with
      | .error f =>
        ⟨f.status, none, diagnostic.map (fun d =>
          ⟨d.size, d.version, f.status, f.node, f.edge, f.message⟩)⟩
      | .ok program =>
        ⟨.ok, some program, diagnostic.map (fun d => ⟨d.size, d.version, .ok, none, none, ""⟩)⟩

end TurboMedia.StreamGraph
