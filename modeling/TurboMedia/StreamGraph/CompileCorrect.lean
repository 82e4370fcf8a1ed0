import TurboMedia.StreamGraph.WellFormed

/-!
# The compiler accepts the well-formed graphs and orders them

**Input.**  Any descriptors, limits, result pointer and diagnostic.

**Method.**  The array of degrees holds the pending arcs of elimination, so the
last pass is elimination on the places of the nodes.  Cycles of places and cycles
of names are images of each other.
-/

namespace TurboMedia.StreamGraph

open List TopologicalOrder Option Function

section Order

/-- The edges between the places of their nodes. -/
def arcs (all : List Ends) : List (ℕ × ℕ) :=
  all.map (fun x => (x.sourceNode, x.targetNode))

variable {nodes : List Node} {edges : List Edge} {all : List Ends}

theorem release_eq {next j : ℕ} {n : Node} {degrees : ℕ → ℕ} (hids : (nodes.map Node.id).Nodup)
    (hall : List.Forall₂ (Resolves nodes) edges all) (hn : nodes[next]? = some n)
    (hlt : degrees j ≤ Words.max32)
    (hle : (arcs all).countP (fun a => decide (a.1 = next) && decide (a.2 = j)) ≤ degrees j) :
    release nodes n.id edges degrees j =
      degrees j - (arcs all).countP (fun a => decide (a.1 = next) && decide (a.2 = j)) := by
  induction hall generalizing degrees with
  | nil => rfl
  | @cons e x edges all hx _ ih =>
    obtain ⟨source, target, a, b, hj⟩ := hx
    have htarget := findNode_of_getElem? hids hj.target_at
    rw [hj.target_id] at htarget
    have hsame : e.sourceNode = n.id ↔ x.sourceNode = next := by
      constructor
      · intro h
        exact getElem?_unique hids hj.source_at hn (hj.source_id.trans h)
      · intro h
        rw [← h, hj.source_at] at hn
        cases hn
        exact hj.source_id.symm
    simp only [arcs, map_cons, countP_cons] at hle ih ⊢
    rw [release]
    by_cases hsrc : e.sourceNode = n.id
    · have hnext := hsame.mp hsrc
      rw [if_pos hsrc, htarget]
      by_cases hxj : x.targetNode = j
      · subst hxj
        simp only [hnext, decide_true, Bool.and_self, if_true] at hle ⊢
        have hdec := Words.pred32_eq (by omega) hlt
        rw [ih (by rw [update_self]; omega) (by rw [update_self]; omega),
          update_self, hdec]
        omega
      · simp only [hxj, decide_false, Bool.and_false, Bool.false_eq_true, if_false,
          Nat.add_zero] at hle ⊢
        have hother : update degrees x.targetNode (Words.pred32 (degrees x.targetNode)) j =
            degrees j := update_of_ne (Ne.symm hxj) _ _
        rw [ih (by rw [hother]; exact hlt) (by rw [hother]; exact hle), hother]
    · have hnext : ¬ x.sourceNode = next := fun h => hsrc (hsame.mpr h)
      rw [if_neg hsrc]
      simp only [hnext, decide_false, Bool.false_and, Bool.false_eq_true, if_false,
        Nat.add_zero] at hle ⊢
      exact ih hlt hle

theorem orderLoop_eq (hids : (nodes.map Node.id).Nodup)
    (hall : List.Forall₂ (Resolves nodes) edges all) (hlen : all.length ≤ Words.max32) (left : ℕ)
    (seen : ℕ → Bool) (degrees : ℕ → ℕ) (order : List ℕ) (hseen : ∀ j, seen j = decide (j ∈ order))
    (hdegrees : ∀ j, degrees j = pending (arcs all) order j) :
    orderLoop nodes edges left seen degrees order =
      match TopologicalOrder.run (arcs all) (List.range nodes.length) left order with
      | none => .error ⟨.ecycle, none, none, "directed cycle"⟩
      | some result => .ok result := by
  induction left generalizing seen degrees order with
  | zero => rfl
  | succ left ih =>
    have hpick : (List.range nodes.length).find? (fun j => !seen j && decide (degrees j = 0)) =
        TopologicalOrder.next (arcs all) (List.range nodes.length) order := by
      rw [TopologicalOrder.next]
      refine congrArg (fun p => List.find? p _) (funext fun j => ?_)
      rw [hseen, hdegrees, decide_not]
    rw [orderLoop, TopologicalOrder.run, hpick]
    cases hnext : TopologicalOrder.next (arcs all) (List.range nodes.length) order with
    | none => rfl
    | some next =>
      obtain ⟨hmem, hnew, _⟩ := next_some hnext
      have hlt := mem_range.mp hmem
      have hn := getElem?_eq_getElem hlt
      refine ih _ _ _ (fun j => ?_) (fun j => ?_)
      · by_cases hj : j = next
        · subst hj
          simp
        · rw [update_of_ne hj, hseen]
          simp [hj]
      · have hsplit : pending (arcs all) order j =
            pending (arcs all) (order ++ [next]) j +
              (arcs all).countP (fun a => decide (a.1 = next) && decide (a.2 = j)) :=
          pending_append hnew
        have hsmall : pending (arcs all) order j ≤ all.length :=
          countP_le_length.trans_eq (length_map _)
        rw [← hdegrees] at hsplit hsmall
        rw [hn, bind_some, release_eq hids hall hn (by omega) (by omega)]
        omega

theorem exists_of_forall₂_left {α β : Type} {R : α → β → Prop} {xs : List α} {ys : List β} {x : α}
    (h : List.Forall₂ R xs ys) (hx : x ∈ xs) : ∃ y ∈ ys, R x y :=
  exists_of_forall₂_right h.flip hx

theorem exists_forall₂ {α β : Type} {R : α → β → Prop} {xs : List α} (h : ∀ x ∈ xs, ∃ y, R x y) :
    ∃ ys, List.Forall₂ R xs ys := by
  induction xs with
  | nil => exact ⟨[], .nil⟩
  | cons x xs ih =>
    rw [forall_mem_cons] at h
    obtain ⟨y, hy⟩ := h.1
    obtain ⟨ys, hys⟩ := ih h.2
    exact ⟨y :: ys, .cons hy hys⟩

theorem arc_mem_range (hall : List.Forall₂ (Resolves nodes) edges all) (u v : ℕ)
    (harc : TopologicalOrder.Arc (arcs all) u v) :
    u ∈ List.range nodes.length ∧ v ∈ List.range nodes.length := by
  obtain ⟨x, hx, heq⟩ := mem_map.mp harc
  cases heq
  obtain ⟨e, _, source, target, a, b, hj⟩ := exists_of_forall₂_right hall hx
  exact ⟨mem_range.mpr (List.getElem?_eq_some_iff.mp hj.source_at).1,
    mem_range.mpr (List.getElem?_eq_some_iff.mp hj.target_at).1⟩

theorem acyclic_iff (hids : (nodes.map Node.id).Nodup)
    (hall : List.Forall₂ (Resolves nodes) edges all) :
    TopologicalOrder.Acyclic (arcs all) ↔ ∀ u, ¬ Relation.TransGen (Feeds edges) u u := by
  constructor
  · intro hacyclic u hcycle
    refine hacyclic ((findNode nodes u).getD 0)
      (hcycle.lift (fun u => (findNode nodes u).getD 0) ?_)
    rintro v w ⟨e, he, rfl, rfl⟩
    obtain ⟨x, hx, source, target, a, b, hj⟩ := exists_of_forall₂_left hall he
    have hsrc := findNode_of_getElem? hids hj.source_at
    have htarget := findNode_of_getElem? hids hj.target_at
    rw [hj.source_id] at hsrc
    rw [hj.target_id] at htarget
    exact mem_map.mpr ⟨x, hx, by simp only [hsrc, htarget, getD_some]⟩
  · intro hacyclic i hcycle
    refine hacyclic ((nodes[i]?).bind Node.id) (hcycle.lift (fun i => (nodes[i]?).bind Node.id) ?_)
    intro v w harc
    obtain ⟨x, hx, heq⟩ := mem_map.mp harc
    cases heq
    obtain ⟨e, he, source, target, a, b, hj⟩ := exists_of_forall₂_right hall hx
    refine ⟨e, he, ?_, ?_⟩
    · dsimp only
      rw [hj.source_at, bind_some, hj.source_id]
    · dsimp only
      rw [hj.target_at, bind_some, hj.target_id]

def Precedes (nodes : List Node) (edges : List Edge) (order : List ℕ) : Prop :=
  ∀ e ∈ edges, ∀ i j source target, nodes[i]? = some source → nodes[j]? = some target →
    source.id = e.sourceNode → target.id = e.targetNode → order.idxOf i < order.idxOf j

theorem precedes_of_sorted {order : List ℕ} (hids : (nodes.map Node.id).Nodup)
    (hall : List.Forall₂ (Resolves nodes) edges all) (hperm : order.Perm (List.range nodes.length))
    (hsorted : TopologicalOrder.Sorted (arcs all) order) : Precedes nodes edges order := by
  intro e he i j source target hi hj hsrc htarget
  obtain ⟨x, hx, source', target', a, b, hjoins⟩ := exists_of_forall₂_left hall he
  have hxi := getElem?_unique hids hi hjoins.source_at (hsrc.trans hjoins.source_id.symm)
  have hxj := getElem?_unique hids hj hjoins.target_at (htarget.trans hjoins.target_id.symm)
  have harc : TopologicalOrder.Arc (arcs all) i j :=
    mem_map.mpr ⟨x, hx, by rw [hxi, hxj]⟩
  exact (hsorted i j harc (hperm.mem_iff.mpr (arc_mem_range hall i j harc).2)).2

end Order

section Topology

variable {nodes : List Node} {edges : List Edge} {fanoutLimit : ℕ}

theorem emptyCounts_within (fanoutLimit : ℕ) : emptyCounts.Within fanoutLimit :=
  fun _ => ⟨Nat.zero_le _, Nat.zero_le _⟩

theorem kinds_iff (nodes : List Node) :
    ¬ (nodes.countP (fun n => n.kind = kindSource) = 0 ∨
        nodes.countP (fun n => n.kind = kindSink) = 0) ↔
      (∃ n ∈ nodes, n.kind = kindSource) ∧ ∃ n ∈ nodes, n.kind = kindSink := by
  rw [not_or, ← ne_eq, ← ne_eq, ← Nat.pos_iff_ne_zero, ← Nat.pos_iff_ne_zero,
    countP_pos_iff, countP_pos_iff]
  simp

theorem orderLoop_start {all : List Ends} (hids : (nodes.map Node.id).Nodup)
    (hall : List.Forall₂ (Resolves nodes) edges all) (hlen : edges.length ≤ Words.max32) :
    orderLoop nodes edges nodes.length (fun _ => false) (emptyCounts.add all).degrees [] =
      match order (arcs all) (List.range nodes.length) with
      | none => .error ⟨.ecycle, none, none, "directed cycle"⟩
      | some result => .ok result := by
  rw [hall.length_eq] at hlen
  rw [orderLoop_eq hids hall hlen nodes.length _ _ [] (fun j => by simp) (fun j => ?_),
    order, length_range]
  simp only [Counts.add, emptyCounts, pending, arcs, countP_map, Nat.zero_add]
  exact congrArg (fun p => countP p all) (funext fun x => by simp)

theorem validateTopology_ok_iff (hfine : ∀ n ∈ nodes, NodeFine n) (hids : (nodes.map Node.id).Nodup)
    (hlen : edges.length ≤ Words.max32) (order : List ℕ) :
    validateTopology nodes edges fanoutLimit = .ok order ↔
      ∃ all, List.Forall₂ (Resolves nodes) edges all ∧ ((emptyCounts.add all).Within fanoutLimit ∧
          connectedLoop (emptyCounts.add all) 0 nodes = .ok ()) ∧
        ((∃ n ∈ nodes, n.kind = kindSource) ∧ ∃ n ∈ nodes, n.kind = kindSink) ∧
        TopologicalOrder.order (arcs all) (List.range nodes.length) = some order := by
  have hnames : ∀ n ∈ nodes, (n.ports.elements.map Port.name).Nodup :=
    fun n hn => (hfine n hn).names
  have hloop := fun counts => edgeLoop_ok_iff hids hnames 0 emptyCounts counts edges
    (emptyCounts_within fanoutLimit)
  constructor
  · intro h
    rw [validateTopology] at h
    cases hedges : edgeLoop nodes fanoutLimit 0 emptyCounts edges with
    | error f =>
      rw [hedges] at h
      cases h
    | ok counts =>
      obtain ⟨all, hall, rfl, hwithin⟩ := (hloop counts).mp hedges
      rw [hedges] at h
      dsimp only at h
      cases hconn : connectedLoop (emptyCounts.add all) 0 nodes with
      | error f =>
        rw [hconn] at h
        cases h
      | ok _ =>
        rw [hconn] at h
        dsimp only at h
        split_ifs at h with hkinds
        rw [orderLoop_start hids hall hlen] at h
        refine ⟨all, hall, ⟨hwithin, hconn⟩, (kinds_iff nodes).mp hkinds, ?_⟩
        split at h
        · cases h
        · next result hres =>
            rw [Except.ok.injEq] at h
            rw [hres, h]
  · rintro ⟨all, hall, ⟨hwithin, hconn⟩, hkinds, horder⟩
    rw [validateTopology, (hloop _).mpr ⟨all, hall, rfl, hwithin⟩]
    dsimp only
    rw [hconn]
    rw [if_neg ((kinds_iff nodes).mpr hkinds), orderLoop_start hids hall hlen, horder]

/-- With descriptors that are valid, the second pass finds the well-formed graphs. -/
theorem validateTopology_isOk_iff (hfine : ∀ n ∈ nodes, NodeFine n)
    (hids : (nodes.map Node.id).Nodup) (hedges : ∀ e ∈ edges, EdgeFine e)
    (hlen : edges.length ≤ Words.max32) :
    (∃ order, validateTopology nodes edges fanoutLimit = .ok order) ↔
      WellFormed nodes edges fanoutLimit := by
  constructor
  · rintro ⟨order, h⟩
    obtain ⟨all, hall, hcounts, hkinds, horder⟩ :=
      (validateTopology_ok_iff hfine hids hlen order).mp h
    obtain ⟨hinputs, houtputs⟩ := (counts_iff hfine hids hall).mp hcounts
    have hacyclic := (order_isSome_iff nodup_range (arc_mem_range hall)).mp
      (by rw [horder]; rfl)
    refine ⟨hfine, hedges, hids, fun e he => ?_, hinputs, houtputs, hkinds.1, hkinds.2,
      (acyclic_iff hids hall).mp hacyclic⟩
    obtain ⟨x, _, hx⟩ := exists_of_forall₂_left hall he
    exact (joined_iff hfine hids).mpr ⟨x, hx⟩
  · intro hwf
    obtain ⟨all, hall⟩ := exists_forall₂ (fun e he => (joined_iff hfine hids).mp (hwf.joined e he))
    have hacyclic := (acyclic_iff hids hall).mpr hwf.acyclic
    obtain ⟨order, horder⟩ := isSome_iff_exists.mp
      ((order_isSome_iff nodup_range (arc_mem_range hall)).mpr hacyclic)
    exact ⟨order, (validateTopology_ok_iff hfine hids hlen order).mpr ⟨all, hall,
      (counts_iff hfine hids hall).mpr ⟨hwf.inputs, hwf.outputs⟩, ⟨hwf.source, hwf.sink⟩, horder⟩⟩

theorem validateTopology_order {order : List ℕ} (hfine : ∀ n ∈ nodes, NodeFine n)
    (hids : (nodes.map Node.id).Nodup) (hlen : edges.length ≤ Words.max32)
    (h : validateTopology nodes edges fanoutLimit = .ok order) :
    order.Perm (List.range nodes.length) ∧ Precedes nodes edges order := by
  obtain ⟨all, hall, _, _, horder⟩ := (validateTopology_ok_iff hfine hids hlen order).mp h
  obtain ⟨hperm, hsorted⟩ := order_some horder
  exact ⟨hperm, precedes_of_sorted hids hall hperm hsorted⟩

end Topology

def limitsInForce (limits : Option Limits) : Limits :=
  limits.getD defaultLimits

/-- Limits as a caller may set them. -/
structure LimitsFine (limits : Limits) : Prop where
  version : limits.version = abiVersion
  size : limits.size = sizeofLimits
  nodes : 0 < limits.maxNodes ∧ limits.maxNodes ≤ maxNodes
  edges : 0 < limits.maxEdges ∧ limits.maxEdges ≤ maxEdges
  ports : 0 < limits.maxPortsPerNode ∧ limits.maxPortsPerNode ≤ maxPortsPerNode
  fanout : 0 < limits.maxFanout ∧ limits.maxFanout ≤ maxFanout

/-- Two arrays with counts within the limits. -/
structure WithinLimits (nodes : Slice Node) (edges : Slice Edge) (limits : Limits) : Prop where
  arrays : nodes.isNull = false ∧ edges.isNull = false
  nodeCount : 0 < nodes.count ∧ nodes.count ≤ limits.maxNodes
  edgeCount : 0 < edges.count ∧ edges.count ≤ limits.maxEdges
  portCounts : ∀ n ∈ nodes.elements, n.ports.count ≤ limits.maxPortsPerNode

/-- A place for the result that is empty, and a diagnostic, if any, of this version. -/
structure CallFine (out : Option (Option Program)) (diagnostic : Option Diagnostic) : Prop where
  out : out = some none
  diagnostic : ∀ d, diagnostic = some d → d.size = sizeofDiagnostic ∧ d.version = abiVersion

theorem checkLimits_ok_iff (limits : Option Limits) (l : Limits) :
    checkLimits limits = .ok l ↔ LimitsFine (limitsInForce limits) ∧ l = limitsInForce limits := by
  cases limits with
  | none =>
    rw [checkLimits, Except.ok.injEq]
    constructor
    · rintro rfl
      exact ⟨⟨rfl, rfl, by decide, by decide, by decide, by decide⟩, rfl⟩
    · rintro ⟨_, rfl⟩
      rfl
  | some limits =>
    rw [checkLimits, limitsInForce, getD_some]
    split_ifs with hver hbad
    · simp only [false_iff]
      exact fun h => hver h.1.version
    · simp only [false_iff]
      rintro ⟨hfine, _⟩
      obtain ⟨_, hsize, hnodes, hedges, hports, hfanout⟩ := hfine
      omega
    · rw [not_not] at hver
      rw [Except.ok.injEq]
      constructor
      · rintro rfl
        exact ⟨⟨hver, by omega, by omega, by omega, by omega, by omega⟩, rfl⟩
      · rintro ⟨_, rfl⟩
        rfl

theorem findIdx?_ports_none_iff (nodes : Slice Node) (limit : ℕ) :
    nodes.elements.findIdx? (fun n => n.ports.count > limit) = none ↔
      ∀ n ∈ nodes.elements, n.ports.count ≤ limit := by
  rw [findIdx?_eq_none_iff]
  simp

theorem compileGraph_ok_iff (nodes : Slice Node) (edges : Slice Edge) (limits : Option Limits)
    (program : Program) :
    compileGraph nodes edges limits = .ok program ↔
      LimitsFine (limitsInForce limits) ∧ WithinLimits nodes edges (limitsInForce limits) ∧
        cloneDescriptors nodes.elements edges.elements = .ok () ∧
        validateTopology nodes.elements edges.elements (limitsInForce limits).maxFanout =
          .ok program.order ∧ program.nodes = nodes.elements ∧ program.edges = edges.elements := by
  constructor
  · intro h
    rw [compileGraph] at h
    cases hlimits : checkLimits limits with
    | error f =>
      rw [hlimits] at h
      cases h
    | ok l =>
      obtain ⟨hfine, rfl⟩ := (checkLimits_ok_iff limits l).mp hlimits
      rw [hlimits] at h
      dsimp only at h
      split_ifs at h with hcounts
      simp only [not_or, Bool.not_eq_true, not_lt] at hcounts
      obtain ⟨hnodes, hedges, hnodes0, hedges0, hnodesMax, hedgesMax⟩ := hcounts
      split at h
      · cases h
      · next hports =>
          rw [findIdx?_ports_none_iff] at hports
          split at h
          · cases h
          · next hclone =>
              split at h
              · cases h
              · next order horder =>
                  cases h
                  exact ⟨hfine, ⟨⟨hnodes, hedges⟩, ⟨Nat.pos_of_ne_zero hnodes0, hnodesMax⟩,
                    ⟨Nat.pos_of_ne_zero hedges0, hedgesMax⟩, hports⟩, hclone, horder, rfl, rfl⟩
  · rintro ⟨hfine, hwithin, hclone, horder, hnodes, hedges⟩
    obtain ⟨⟨hnull, hnull'⟩, ⟨hpos, hmax⟩, ⟨hpos', hmax'⟩, hports⟩ := hwithin
    have hcounts : ¬ (nodes.isNull = true ∨ edges.isNull = true ∨ nodes.count = 0 ∨
        edges.count = 0 ∨ nodes.count > (limitsInForce limits).maxNodes ∨
        edges.count > (limitsInForce limits).maxEdges) := by
      rw [hnull, hnull']
      simp only [Bool.false_eq_true, false_or]
      omega
    rw [compileGraph, (checkLimits_ok_iff limits _).mpr ⟨hfine, rfl⟩]
    dsimp only
    rw [if_neg hcounts, (findIdx?_ports_none_iff nodes _).mpr hports]
    rw [hclone]
    rw [horder]
    rw [← hnodes, ← hedges]

theorem length_le_count {α : Type} (slice : Slice α) : slice.elements.length ≤ slice.count := by
  cases slice with
  | null n => exact Nat.zero_le _
  | array elements => exact le_rfl

theorem edges_length_le {nodes : Slice Node} {edges : Slice Edge} {limits : Limits}
    (hfine : LimitsFine limits) (hwithin : WithinLimits nodes edges limits) :
    edges.elements.length ≤ Words.max32 := by
  have hcount := length_le_count edges
  have hedges := hwithin.edgeCount.2
  have hmax := hfine.edges.2
  simp only [maxEdges, Words.max32] at *
  omega

theorem compileGraph_isOk_iff (nodes : Slice Node) (edges : Slice Edge) (limits : Option Limits) :
    (∃ program, compileGraph nodes edges limits = .ok program) ↔
      LimitsFine (limitsInForce limits) ∧ WithinLimits nodes edges (limitsInForce limits) ∧
        WellFormed nodes.elements edges.elements (limitsInForce limits).maxFanout := by
  constructor
  · rintro ⟨program, h⟩
    obtain ⟨hfine, hwithin, hclone, horder, _⟩ := (compileGraph_ok_iff _ _ _ _).mp h
    obtain ⟨hnodes, hids, hedges⟩ := (cloneDescriptors_ok_iff _ _).mp hclone
    have hlen := edges_length_le hfine hwithin
    exact ⟨hfine, hwithin,
      (validateTopology_isOk_iff hnodes hids hedges hlen).mp ⟨program.order, horder⟩⟩
  · rintro ⟨hfine, hwithin, hwf⟩
    have hlen := edges_length_le hfine hwithin
    obtain ⟨order, horder⟩ :=
      (validateTopology_isOk_iff hwf.nodesFine hwf.ids hwf.edgesFine hlen).mpr hwf
    exact ⟨⟨nodes.elements, edges.elements, order⟩, (compileGraph_ok_iff _ _ _ _).mpr
      ⟨hfine, hwithin, (cloneDescriptors_ok_iff _ _).mpr ⟨hwf.nodesFine, hwf.ids, hwf.edgesFine⟩,
        horder, rfl, rfl⟩⟩

/-- A failure carries the status of an error. -/
def Honest {α : Type} (result : Except Failure α) : Prop :=
  ∀ f, result = .error f → f.status ≠ .ok

theorem honest_ok {α : Type} (x : α) : Honest (.ok x) :=
  fun _ h => by cases h

theorem honest_error {α : Type} {f : Failure} (h : f.status ≠ .ok) :
    Honest (.error f : Except Failure α) := by
  intro g hg
  cases hg
  exact h

theorem clonePorts_honest (i : ℕ) (source : Node) (earlier ports : List Port) :
    Honest (clonePorts i source earlier ports) := by
  induction ports generalizing earlier with
  | nil => exact honest_ok ()
  | cons v rest ih =>
    rw [clonePorts]
    split_ifs
    · exact honest_error (by simp)
    · exact honest_error (by simp)
    · exact honest_error (by simp)
    · exact honest_error (by simp)
    · exact ih _

theorem cloneNodes_honest (earlier nodes : List Node) : Honest (cloneNodes earlier nodes) := by
  induction nodes generalizing earlier with
  | nil => exact honest_ok ()
  | cons n rest ih =>
    rw [cloneNodes]
    split_ifs
    · exact honest_error (by simp)
    · exact honest_error (by simp)
    · exact honest_error (by simp)
    · cases hclone : clonePorts earlier.length n [] n.ports.elements with
      | error f => exact honest_error (clonePorts_honest _ _ _ _ f hclone)
      | ok _ => exact ih _

theorem cloneEdges_honest (i : ℕ) (edges : List Edge) : Honest (cloneEdges i edges) := by
  induction edges generalizing i with
  | nil => exact honest_ok ()
  | cons e rest ih =>
    rw [cloneEdges]
    split_ifs
    · exact honest_error (by simp)
    · exact honest_error (by simp)
    · exact ih _

theorem cloneDescriptors_honest (nodes : List Node) (edges : List Edge) :
    Honest (cloneDescriptors nodes edges) := by
  rw [cloneDescriptors]
  cases hclone : cloneNodes [] nodes with
  | error f => exact honest_error (cloneNodes_honest _ _ f hclone)
  | ok _ => exact cloneEdges_honest _ _

theorem resolveEdge_honest (nodes : List Node) (i : ℕ) (e : Edge) :
    Honest (resolveEdge nodes i e) := by
  rw [resolveEdge]
  split
  · split_ifs
    · exact honest_error (by simp)
    · split
      · split
        · split
          · split_ifs
            · exact honest_error (by simp)
            · exact honest_error (by simp)
            · exact honest_ok _
          · exact honest_error (by simp)
        · exact honest_error (by simp)
      · exact honest_error (by simp)
  · exact honest_error (by simp)

theorem edgeLoop_honest (nodes : List Node) (fanoutLimit i : ℕ) (counts : Counts)
    (edges : List Edge) : Honest (edgeLoop nodes fanoutLimit i counts edges) := by
  induction edges generalizing i counts with
  | nil => exact honest_ok counts
  | cons e rest ih =>
    rw [edgeLoop]
    cases hresolve : resolveEdge nodes i e with
    | error f => exact honest_error (resolveEdge_honest nodes i e f hresolve)
    | ok ends =>
      dsimp only
      split_ifs
      · exact honest_error (by simp)
      · exact ih _ _

theorem connectedLoop_honest (counts : Counts) (i : ℕ) (nodes : List Node) :
    Honest (connectedLoop counts i nodes) := by
  induction nodes generalizing i with
  | nil => exact honest_ok ()
  | cons n rest ih =>
    rw [connectedLoop]
    split_ifs
    · exact honest_error (by simp)
    · exact ih _

theorem orderLoop_honest (nodes : List Node) (edges : List Edge) (left : ℕ) (seen : ℕ → Bool)
    (degrees : ℕ → ℕ) (order : List ℕ) :
    Honest (orderLoop nodes edges left seen degrees order) := by
  induction left generalizing seen degrees order with
  | zero => exact honest_ok order
  | succ left ih =>
    rw [orderLoop]
    split
    · exact honest_error (by simp)
    · exact ih _ _ _

theorem validateTopology_honest (nodes : List Node) (edges : List Edge) (fanoutLimit : ℕ) :
    Honest (validateTopology nodes edges fanoutLimit) := by
  rw [validateTopology]
  cases hedges : edgeLoop nodes fanoutLimit 0 emptyCounts edges with
  | error f => exact honest_error (edgeLoop_honest _ _ _ _ _ f hedges)
  | ok counts =>
    dsimp only
    cases hconn : connectedLoop counts 0 nodes with
    | error f => exact honest_error (connectedLoop_honest _ _ _ f hconn)
    | ok _ =>
      split_ifs
      · exact honest_error (by simp)
      · exact orderLoop_honest _ _ _ _ _ _

theorem checkLimits_honest (limits : Option Limits) : Honest (checkLimits limits) := by
  cases limits with
  | none => exact honest_ok _
  | some limits =>
    rw [checkLimits]
    split_ifs
    · exact honest_error (by simp)
    · exact honest_error (by simp)
    · exact honest_ok _

theorem compileGraph_honest (nodes : Slice Node) (edges : Slice Edge) (limits : Option Limits) :
    Honest (compileGraph nodes edges limits) := by
  rw [compileGraph]
  cases hlimits : checkLimits limits with
  | error f => exact honest_error (checkLimits_honest limits f hlimits)
  | ok l =>
    dsimp only
    split_ifs
    · exact honest_error (by simp)
    · split
      · exact honest_error (by simp)
      · cases hclone : cloneDescriptors nodes.elements edges.elements with
        | error f => exact honest_error (cloneDescriptors_honest _ _ f hclone)
        | ok _ =>
          cases horder : validateTopology nodes.elements edges.elements l.maxFanout with
          | error f => exact honest_error (validateTopology_honest _ _ _ f horder)
          | ok order => exact honest_ok _

theorem diagnosticFine_iff (diagnostic : Option Diagnostic) :
    diagnostic.any (fun d => d.size ≠ sizeofDiagnostic || d.version ≠ abiVersion) = false ↔
      ∀ d, diagnostic = some d → d.size = sizeofDiagnostic ∧ d.version = abiVersion := by
  cases diagnostic with
  | none => simp
  | some d => simp

theorem compile_refused (nodes : Slice Node) (edges : Slice Edge) (limits : Option Limits)
    {out : Option (Option Program)} {diagnostic : Option Diagnostic}
    (h : ¬ CallFine out diagnostic) :
    (compile nodes edges limits out diagnostic).status = .einval ∧
      (compile nodes edges limits out diagnostic).out = out.join := by
  match out with
  | none => exact ⟨rfl, rfl⟩
  | some (some program) => exact ⟨rfl, rfl⟩
  | some none =>
    rw [compile, if_pos]
    · exact ⟨rfl, rfl⟩
    · by_contra hany
      rw [Bool.not_eq_true] at hany
      exact h ⟨rfl, (diagnosticFine_iff diagnostic).mp hany⟩

/-- **The compiler.**  It accepts exactly the well-formed graphs within their
limits, returns their nodes in an order that respects every edge, and otherwise
leaves the result as it was. -/
theorem compile_accepts_and_orders (nodes : Slice Node) (edges : Slice Edge)
    (limits : Option Limits) (out : Option (Option Program)) (diagnostic : Option Diagnostic) :
    ((compile nodes edges limits out diagnostic).status = .ok ↔
      CallFine out diagnostic ∧ LimitsFine (limitsInForce limits) ∧
        WithinLimits nodes edges (limitsInForce limits) ∧
        WellFormed nodes.elements edges.elements (limitsInForce limits).maxFanout) ∧
    ((compile nodes edges limits out diagnostic).status = .ok →
      ∃ program, (compile nodes edges limits out diagnostic).out = some program ∧
        program.nodes = nodes.elements ∧ program.edges = edges.elements ∧
        program.order.Perm (List.range program.nodes.length) ∧
        Precedes program.nodes program.edges program.order) ∧
    ((compile nodes edges limits out diagnostic).status ≠ .ok →
      (compile nodes edges limits out diagnostic).out = out.join) := by
  have hgraph := compileGraph_isOk_iff nodes edges limits
  by_cases hcall : CallFine out diagnostic
  · have hdiagnostic := (diagnosticFine_iff diagnostic).mpr hcall.diagnostic
    obtain rfl := hcall.out
    rw [compile, if_neg (by rw [hdiagnostic]; exact Bool.false_ne_true)]
    cases hcompile : compileGraph nodes edges limits with
    | error f =>
      have hstatus := compileGraph_honest nodes edges limits f hcompile
      refine ⟨⟨fun h => absurd h hstatus, fun h => ?_⟩, fun h => absurd h hstatus, fun _ => rfl⟩
      obtain ⟨program, hprogram⟩ := hgraph.mpr h.2
      rw [hcompile] at hprogram
      cases hprogram
    | ok program =>
      refine ⟨⟨fun _ => ⟨hcall, hgraph.mp ⟨program, hcompile⟩⟩, fun _ => rfl⟩, fun _ => ?_,
        fun h => absurd rfl h⟩
      obtain ⟨hfine, hwithin, hclone, horder, hnodes, hedges⟩ :=
        (compileGraph_ok_iff _ _ _ _).mp hcompile
      obtain ⟨hnodesFine, hids, _⟩ := (cloneDescriptors_ok_iff _ _).mp hclone
      obtain ⟨hperm, hprecedes⟩ :=
        validateTopology_order hnodesFine hids (edges_length_le hfine hwithin) horder
      exact ⟨program, rfl, hnodes, hedges, by rw [hnodes]; exact hperm,
        by rw [hnodes, hedges]; exact hprecedes⟩
  · have hrefused : (compile nodes edges limits out diagnostic).status = .einval ∧
        (compile nodes edges limits out diagnostic).out = out.join :=
      compile_refused nodes edges limits hcall
    rw [hrefused.1, hrefused.2]
    exact ⟨⟨by simp, fun h => absurd h.1 hcall⟩, by simp, fun _ => rfl⟩

end TurboMedia.StreamGraph
