import TurboMedia.StreamGraph.Compile

/-!
# Well-formed stream graphs

What a graph has to be, stated without the passes of the compiler: descriptors
valid in themselves, names that tell nodes and ports apart, edges between ports
that fit, every port connected and no cycle.

**Method.**  Each loop of the first two passes is read as a statement about the
whole list it runs over.  Counts of edges are kept per slot by the code and per
name here; names are distinct, so the two agree.
-/

namespace TurboMedia.StreamGraph

open List Counts

/-- A node descriptor and those of its ports. -/
structure NodeFine (n : Node) : Prop where
  version : n.version = abiVersion
  valid : nodeValid n = true
  ports : ∀ v ∈ n.ports.elements,
    v.version = abiVersion ∧ portValid v = true ∧ directionFits n v = true
  names : (n.ports.elements.map Port.name).Nodup

/-- An edge descriptor. -/
structure EdgeFine (e : Edge) : Prop where
  version : e.version = abiVersion
  valid : edgeValid e = true

def Agree (x y : ℕ) : Prop :=
  x = 0 ∨ y = 0 ∨ x = y

/-- The timebases are the same rational, or one of them is unconstrained. -/
def SameTimebase (a b : Port) : Prop :=
  a.timebaseNum = 0 ∨ b.timebaseNum = 0 ∨
    (a.timebaseNum : ℚ) / a.timebaseDen = b.timebaseNum / b.timebaseDen

/-- Data can pass from one port to the other as it is. -/
structure Compatible (a b : Port) : Prop where
  kind : a.kind = b.kind
  schema : a.schemaId = b.schemaId
  format : Agree a.formatId b.formatId
  memory : Agree a.memoryDomain b.memoryDomain
  timebase : SameTimebase a b

/-- The edge goes from an output port to an input port of another node. -/
def Joined (nodes : List Node) (e : Edge) : Prop :=
  ∃ source ∈ nodes, ∃ target ∈ nodes, source.id = e.sourceNode ∧ target.id = e.targetNode ∧
    source.id ≠ target.id ∧
    ∃ a ∈ source.ports.elements, ∃ b ∈ target.ports.elements,
      a.direction = directionOutput ∧ a.name = e.sourcePort ∧
      b.direction = directionInput ∧ b.name = e.targetPort ∧ Compatible a b

def incoming (edges : List Edge) (n : Node) (v : Port) : ℕ :=
  edges.countP (fun e => decide (e.targetNode = n.id) && decide (e.targetPort = v.name))

def outgoing (edges : List Edge) (n : Node) (v : Port) : ℕ :=
  edges.countP (fun e => decide (e.sourceNode = n.id) && decide (e.sourcePort = v.name))

/-- Some edge goes from one node to the other. -/
def Feeds (edges : List Edge) (u v : Name) : Prop :=
  ∃ e ∈ edges, e.sourceNode = u ∧ e.targetNode = v

/-- A graph the compiler is meant to accept. -/
structure WellFormed (nodes : List Node) (edges : List Edge) (fanoutLimit : ℕ) : Prop where
  nodesFine : ∀ n ∈ nodes, NodeFine n
  edgesFine : ∀ e ∈ edges, EdgeFine e
  ids : (nodes.map Node.id).Nodup
  joined : ∀ e ∈ edges, Joined nodes e
  inputs : ∀ n ∈ nodes, ∀ v ∈ n.ports.elements, v.direction = directionInput →
    incoming edges n v = 1
  outputs : ∀ n ∈ nodes, ∀ v ∈ n.ports.elements, v.direction = directionOutput →
    1 ≤ outgoing edges n v ∧ outgoing edges n v ≤ fanoutLimit
  source : ∃ n ∈ nodes, n.kind = kindSource
  sink : ∃ n ∈ nodes, n.kind = kindSink
  acyclic : ∀ u, ¬ Relation.TransGen (Feeds edges) u u

/-- Checking each element against those before it finds the repeated keys. -/
theorem nodup_cons_iff {α β : Type} (f : α → β) (earlier : List α) (x : α) (rest : List α) :
    (((x :: rest).map f).Nodup ∧ ∀ y ∈ x :: rest, f y ∉ earlier.map f) ↔
      f x ∉ earlier.map f ∧ (rest.map f).Nodup ∧ ∀ y ∈ rest, f y ∉ (earlier ++ [x]).map f := by
  simp only [map_cons, nodup_cons, mem_cons, forall_eq_or_imp, map_append,
    map_nil, mem_append, not_mem_nil, or_false, not_or, mem_map, not_exists,
    not_and]
  constructor
  · rintro ⟨⟨hx, hnodup⟩, hearlier, hrest⟩
    exact ⟨hearlier, hnodup, fun y hy => ⟨hrest y hy, fun heq => hx y hy heq⟩⟩
  · rintro ⟨hearlier, hnodup, hrest⟩
    exact ⟨⟨fun y hy heq => (hrest y hy).2 heq, hnodup⟩, hearlier, fun y hy => (hrest y hy).1⟩

theorem clonePorts_ok_iff (i : ℕ) (source : Node) (earlier ports : List Port) :
    clonePorts i source earlier ports = .ok () ↔
      (∀ v ∈ ports, v.version = abiVersion ∧ portValid v = true ∧ directionFits source v = true) ∧
        (ports.map Port.name).Nodup ∧ ∀ v ∈ ports, v.name ∉ earlier.map Port.name := by
  induction ports generalizing earlier with
  | nil => simp [clonePorts]
  | cons v rest ih =>
    rw [nodup_cons_iff, clonePorts]
    split_ifs with hver hvalid hfits hclash
    · simp [hver]
    · simp [hvalid]
    · simp [hfits]
    · simp [hclash]
    · rw [not_not] at hver
      rw [Bool.not_eq_false] at hvalid hfits
      rw [ih, forall_mem_cons]
      constructor
      · rintro ⟨hall, hnodup, hrest⟩
        exact ⟨⟨⟨hver, hvalid, hfits⟩, hall⟩, hclash, hnodup, hrest⟩
      · rintro ⟨⟨_, hall⟩, _, hnodup, hrest⟩
        exact ⟨hall, hnodup, hrest⟩

theorem cloneNodes_ok_iff (earlier nodes : List Node) :
    cloneNodes earlier nodes = .ok () ↔ (∀ n ∈ nodes, NodeFine n) ∧
        (nodes.map Node.id).Nodup ∧ ∀ n ∈ nodes, n.id ∉ earlier.map Node.id := by
  induction nodes generalizing earlier with
  | nil => simp [cloneNodes]
  | cons n rest ih =>
    rw [nodup_cons_iff, cloneNodes, forall_mem_cons]
    split_ifs with hver hvalid hclash
    · simp only [false_iff]
      exact fun h => hver h.1.1.version
    · simp only [false_iff]
      exact fun h => by simp [h.1.1.valid] at hvalid
    · simp only [false_iff]
      exact fun h => h.2.1 hclash
    · rw [not_not] at hver
      rw [Bool.not_eq_false] at hvalid
      have hports := clonePorts_ok_iff earlier.length n [] n.ports.elements
      cases hclone : clonePorts earlier.length n [] n.ports.elements with
      | error f =>
        rw [hclone] at hports
        simp only [reduceCtorEq, false_iff] at hports ⊢
        exact fun h => hports ⟨h.1.1.ports, h.1.1.names, by simp⟩
      | ok _ =>
        obtain ⟨hfine, hnames, _⟩ := hports.mp hclone
        rw [ih]
        constructor
        · rintro ⟨hall, hnodup, hrest⟩
          exact ⟨⟨⟨hver, hvalid, hfine, hnames⟩, hall⟩, hclash, hnodup, hrest⟩
        · rintro ⟨⟨_, hall⟩, _, hnodup, hrest⟩
          exact ⟨hall, hnodup, hrest⟩

theorem cloneEdges_ok_iff (i : ℕ) (edges : List Edge) :
    cloneEdges i edges = .ok () ↔ ∀ e ∈ edges, EdgeFine e := by
  induction edges generalizing i with
  | nil => simp [cloneEdges]
  | cons e rest ih =>
    rw [cloneEdges, forall_mem_cons]
    split_ifs with hver hvalid
    · simp only [false_iff]
      exact fun h => hver h.1.version
    · simp only [false_iff]
      exact fun h => by simp [h.1.valid] at hvalid
    · rw [not_not] at hver
      rw [Bool.not_eq_false] at hvalid
      rw [ih]
      exact ⟨fun h => ⟨⟨hver, hvalid⟩, h⟩, And.right⟩

/-- The first pass accepts descriptors that are valid and told apart by name. -/
theorem cloneDescriptors_ok_iff (nodes : List Node) (edges : List Edge) :
    cloneDescriptors nodes edges = .ok () ↔
      (∀ n ∈ nodes, NodeFine n) ∧ (nodes.map Node.id).Nodup ∧ ∀ e ∈ edges, EdgeFine e := by
  have hnodes := cloneNodes_ok_iff [] nodes
  rw [cloneDescriptors]
  cases hclone : cloneNodes [] nodes with
  | error f =>
    rw [hclone] at hnodes
    simp only [reduceCtorEq, false_iff] at hnodes ⊢
    exact fun h => hnodes ⟨h.1, h.2.1, by simp⟩
  | ok _ =>
    obtain ⟨hfine, hids, _⟩ := hnodes.mp hclone
    rw [cloneEdges_ok_iff]
    exact ⟨fun h => ⟨hfine, hids, h⟩, fun h => h.2.2⟩

/-- The edge with the places it begins and ends at. -/
structure Joins (nodes : List Node) (e : Edge) (ends : Ends) (source target : Node)
    (a b : Port) : Prop where
  source_at : nodes[ends.sourceNode]? = some source
  target_at : nodes[ends.targetNode]? = some target
  source_id : source.id = e.sourceNode
  target_id : target.id = e.targetNode
  apart : ends.sourceNode ≠ ends.targetNode
  a_at : source.ports.elements[ends.sourcePort]? = some a
  b_at : target.ports.elements[ends.targetPort]? = some b
  a_direction : a.direction = directionOutput
  a_name : a.name = e.sourcePort
  b_direction : b.direction = directionInput
  b_name : b.name = e.targetPort
  type : sameType a b = true
  format : sameFormat a b = true

def Resolves (nodes : List Node) (e : Edge) (ends : Ends) : Prop :=
  ∃ source target a b, Joins nodes e ends source target a b

variable {i j : ℕ}

theorem getElem?_unique {α β : Type} {f : α → β} {l : List α} {x y : α}
    (hnodup : (l.map f).Nodup) (hx : l[i]? = some x) (hy : l[j]? = some y) (hf : f x = f y) :
    i = j := by
  have hi : (l.map f)[i]? = some (f x) := by
    rw [getElem?_map, hx, Option.map_some]
  have hj : (l.map f)[j]? = some (f x) := by
    rw [getElem?_map, hy, Option.map_some, hf]
  obtain ⟨hlt, _⟩ := List.getElem?_eq_some_iff.mp hi
  exact (getElem?_inj hlt hnodup).mp (hi.trans hj.symm)

theorem findIdx?_of_nodup {α β : Type} {f : α → β} {l : List α} {x : α} {p : α → Bool}
    (hnodup : (l.map f).Nodup) (hx : l[i]? = some x) (hp : p x = true)
    (hkey : ∀ y, p y = true → f y = f x) : l.findIdx? p = some i := by
  rw [findIdx?_eq_some_iff_getElem]
  obtain ⟨hlt, hget⟩ := List.getElem?_eq_some_iff.mp hx
  refine ⟨hlt, by rw [hget]; exact hp, fun j hj hpj => ?_⟩
  have heq := getElem?_unique hnodup hx (getElem?_eq_getElem (hj.trans hlt))
    (hkey _ (by simpa using hpj)).symm
  omega

theorem findIdx?_some {α : Type} {l : List α} {p : α → Bool} (h : l.findIdx? p = some i) :
    ∃ x, l[i]? = some x ∧ p x = true := by
  obtain ⟨hlt, hp, _⟩ := findIdx?_eq_some_iff_getElem.mp h
  exact ⟨l[i], getElem?_eq_getElem hlt, hp⟩

variable {nodes : List Node} {n : Node}

theorem findNode_of_getElem?
    (hids : (nodes.map Node.id).Nodup) (hn : nodes[i]? = some n) : findNode nodes n.id = some i :=
  findIdx?_of_nodup hids hn (by simp) (fun y hy => by simpa using hy)

variable {e : Edge}

theorem resolves_of_resolveEdge {ends : Ends}
    (h : resolveEdge nodes i e = .ok ends) : Resolves nodes e ends := by
  rw [resolveEdge] at h
  split at h
  · next sn tn hsn htn =>
      split_ifs at h with hself
      split at h
      · next source target hsrc htarget =>
          split at h
          · next sp tp hsp htp =>
              split at h
              · next a b ha hb =>
                  split_ifs at h with htype hformat
                  cases h
                  obtain ⟨source', hsrc', hsid⟩ := findIdx?_some hsn
                  obtain ⟨target', htarget', htid⟩ := findIdx?_some htn
                  obtain ⟨a', ha', hap⟩ := findIdx?_some hsp
                  obtain ⟨b', hb', hbp⟩ := findIdx?_some htp
                  rw [hsrc] at hsrc'
                  rw [htarget] at htarget'
                  rw [ha] at ha'
                  rw [hb] at hb'
                  cases hsrc'
                  cases htarget'
                  cases ha'
                  cases hb'
                  simp only [decide_eq_true_eq] at hsid htid hap hbp
                  exact ⟨source, target, a, b, hsrc, htarget, hsid, htid, hself, ha, hb,
                    hap.1, hap.2, hbp.1, hbp.2, by simpa using htype, by simpa using hformat⟩
              · cases h
          · cases h
      · cases h
  · cases h

theorem resolveEdge_of_resolves {ends : Ends} (i : ℕ) (hids : (nodes.map Node.id).Nodup)
    (hnames : ∀ n ∈ nodes, (n.ports.elements.map Port.name).Nodup) (h : Resolves nodes e ends) :
    resolveEdge nodes i e = .ok ends := by
  obtain ⟨source, target, a, b, hj⟩ := h
  have hsn := findNode_of_getElem? hids hj.source_at
  have htn := findNode_of_getElem? hids hj.target_at
  rw [hj.source_id] at hsn
  rw [hj.target_id] at htn
  have hsp : findPort source e.sourcePort directionOutput = some ends.sourcePort :=
    findIdx?_of_nodup (hnames source (mem_of_getElem? hj.source_at)) hj.a_at
      (by simp [hj.a_name, hj.a_direction])
      (fun y hy => by rw [hj.a_name]; exact (of_decide_eq_true hy).2)
  have htp : findPort target e.targetPort directionInput = some ends.targetPort :=
    findIdx?_of_nodup (hnames target (mem_of_getElem? hj.target_at)) hj.b_at
      (by simp [hj.b_name, hj.b_direction])
      (fun y hy => by rw [hj.b_name]; exact (of_decide_eq_true hy).2)
  rw [resolveEdge, hsn, htn]
  dsimp only
  rw [if_neg hj.apart, hj.source_at, hj.target_at]
  dsimp only
  rw [hsp, htp]
  dsimp only
  rw [hj.a_at, hj.b_at]
  dsimp only
  rw [hj.type, hj.format]
  rfl

theorem agree_iff (x y : ℕ) :
    Agree x y ↔ (decide (x ≠ 0) && decide (y ≠ 0) && decide (x ≠ y)) = false := by
  rw [Agree]
  by_cases hx : x = 0
  · simp [hx]
  · by_cases hy : y = 0
    · simp [hy]
    · simp [hx, hy]

theorem sameTimebase_iff {a b : Port} (ha : a.timebaseNum ≠ 0 ↔ a.timebaseDen ≠ 0)
    (hb : b.timebaseNum ≠ 0 ↔ b.timebaseDen ≠ 0) :
    SameTimebase a b ↔ (decide (a.timebaseNum ≠ 0) && decide (b.timebaseNum ≠ 0) &&
        decide (a.timebaseNum * b.timebaseDen ≠ b.timebaseNum * a.timebaseDen)) = false := by
  rw [SameTimebase]
  by_cases hanum : a.timebaseNum = 0
  · simp [hanum]
  · by_cases hbnum : b.timebaseNum = 0
    · simp [hbnum]
    · have haden : (a.timebaseDen : ℚ) ≠ 0 := by exact_mod_cast ha.mp hanum
      have hbden : (b.timebaseDen : ℚ) ≠ 0 := by exact_mod_cast hb.mp hbnum
      rw [div_eq_div_iff haden hbden]
      simp only [hanum, hbnum, ne_eq, not_false_eq_true, decide_true, Bool.true_and, false_or,
        decide_eq_false_iff_not, not_not]
      exact_mod_cast Iff.rfl

variable {v : Port}

theorem portValid_timebase (h : portValid v = true) :
    v.timebaseNum ≠ 0 ↔ v.timebaseDen ≠ 0 := by
  simp only [portValid, Bool.and_eq_true, decide_eq_true_eq] at h
  exact h.1.2

theorem compatible_iff {a b : Port} (ha : portValid a = true) (hb : portValid b = true) :
    Compatible a b ↔ sameType a b = true ∧ sameFormat a b = true := by
  have htimebase := sameTimebase_iff (portValid_timebase ha) (portValid_timebase hb)
  have hformat := agree_iff a.formatId b.formatId
  have hmemory := agree_iff a.memoryDomain b.memoryDomain
  simp only [sameType, sameFormat, Bool.and_eq_true, decide_eq_true_eq, Bool.not_eq_true',
    Bool.or_eq_false_iff]
  rw [← htimebase, ← hformat, ← hmemory]
  constructor
  · rintro ⟨h1, h2, h3, h4, h5⟩
    exact ⟨⟨h1, h2⟩, ⟨h3, h4⟩, h5⟩
  · rintro ⟨⟨h1, h2⟩, ⟨h3, h4⟩, h5⟩
    exact ⟨h1, h2, h3, h4, h5⟩

theorem joined_iff (hfine : ∀ n ∈ nodes, NodeFine n)
    (hids : (nodes.map Node.id).Nodup) : Joined nodes e ↔ ∃ ends, Resolves nodes e ends := by
  constructor
  · rintro ⟨source, hsrc, target, htarget, hsid, htid, hne, a, ha, b, hb, had, han, hbd, hbn,
      hcompatible⟩
    obtain ⟨sn, hsn⟩ := mem_iff_getElem?.mp hsrc
    obtain ⟨tn, htn⟩ := mem_iff_getElem?.mp htarget
    obtain ⟨sp, hsp⟩ := mem_iff_getElem?.mp ha
    obtain ⟨tp, htp⟩ := mem_iff_getElem?.mp hb
    have hports := (compatible_iff ((hfine source hsrc).ports a ha).2.1
      ((hfine target htarget).ports b hb).2.1).mp hcompatible
    have hapart : sn ≠ tn := by
      rintro rfl
      rw [hsn, Option.some.injEq] at htn
      exact hne (by rw [htn])
    exact ⟨⟨sn, sp, tn, tp⟩, source, target, a, b, hsn, htn, hsid, htid, hapart, hsp, htp, had,
      han, hbd, hbn, hports.1, hports.2⟩
  · rintro ⟨ends, source, target, a, b, hj⟩
    have hsrc := mem_of_getElem? hj.source_at
    have htarget := mem_of_getElem? hj.target_at
    have ha := mem_of_getElem? hj.a_at
    have hb := mem_of_getElem? hj.b_at
    have hcompatible := (compatible_iff ((hfine source hsrc).ports a ha).2.1
      ((hfine target htarget).ports b hb).2.1).mpr ⟨hj.type, hj.format⟩
    refine ⟨source, hsrc, target, htarget, hj.source_id, hj.target_id, fun heq => ?_, a, ha, b,
      hb, hj.a_direction, hj.a_name, hj.b_direction, hj.b_name, hcompatible⟩
    exact hj.apart (getElem?_unique hids hj.source_at hj.target_at heq)

def Counts.add (counts : Counts) (all : List Ends) : Counts where
  ingress := fun k =>
    counts.ingress k + all.countP (fun x => decide (slot x.targetNode x.targetPort = k))
  fanout := fun k =>
    counts.fanout k + all.countP (fun x => decide (slot x.sourceNode x.sourcePort = k))
  degrees := fun j => counts.degrees j + all.countP (fun x => decide (x.targetNode = j))

def Counts.Within (counts : Counts) (fanoutLimit : ℕ) : Prop :=
  ∀ k, counts.ingress k ≤ 1 ∧ counts.fanout k ≤ fanoutLimit

theorem increment_add (counts : ℕ → ℕ) (k : ℕ) {α : Type} (f : α → ℕ) (x : α) (rest : List α)
    (hk : f x = k) :
    (fun j => increment counts k j + rest.countP (fun y => decide (f y = j))) =
      fun j => counts j + (x :: rest).countP (fun y => decide (f y = j)) := by
  funext j
  rw [countP_cons, increment, hk]
  by_cases hj : k = j
  · subst hj
    simp
    omega
  · rw [Function.update_of_ne (Ne.symm hj)]
    simp [hj]

theorem Counts.add_nil (counts : Counts) : counts.add [] = counts := by
  simp [add]

theorem Counts.add_cons (counts : Counts) (x : Ends) (rest : List Ends) :
    (Counts.mk (increment counts.ingress (slot x.targetNode x.targetPort))
      (increment counts.fanout (slot x.sourceNode x.sourcePort))
      (increment counts.degrees x.targetNode)).add rest = counts.add (x :: rest) := by
  simp only [add, Counts.mk.injEq]
  exact ⟨increment_add _ _ (fun y : Ends => slot y.targetNode y.targetPort) x rest rfl,
    increment_add _ _ (fun y : Ends => slot y.sourceNode y.sourcePort) x rest rfl,
    increment_add _ _ Ends.targetNode x rest rfl⟩

theorem increment_self (counts : ℕ → ℕ) (k : ℕ) : increment counts k k = counts k + 1 :=
  Function.update_self _ _ _

theorem increment_le {counts : ℕ → ℕ} {k limit : ℕ} (h : ∀ j, counts j ≤ limit)
    (hk : counts k + 1 ≤ limit) (j : ℕ) : increment counts k j ≤ limit := by
  by_cases hj : j = k
  · subst hj
    rw [increment_self]
    exact hk
  · rw [increment, Function.update_of_ne hj]
    exact h j

theorem Counts.Within.increment {counts : Counts} {fanoutLimit k l : ℕ} {degrees : ℕ → ℕ}
    (h : counts.Within fanoutLimit) (hk : counts.ingress k + 1 ≤ 1)
    (hl : counts.fanout l + 1 ≤ fanoutLimit) :
    (Counts.mk (StreamGraph.increment counts.ingress k) (StreamGraph.increment counts.fanout l)
      degrees).Within fanoutLimit :=
  fun j => ⟨increment_le (fun j => (h j).1) hk j, increment_le (fun j => (h j).2) hl j⟩

/-- The loop over the edges counts edges with ends, and stops at a port with too
many. -/
theorem edgeLoop_ok_iff {fanoutLimit : ℕ} (hids : (nodes.map Node.id).Nodup)
    (hnames : ∀ n ∈ nodes, (n.ports.elements.map Port.name).Nodup) (i : ℕ) (counts counts' : Counts)
    (edges : List Edge) (hwithin : counts.Within fanoutLimit) :
    edgeLoop nodes fanoutLimit i counts edges = .ok counts' ↔
      ∃ all, List.Forall₂ (Resolves nodes) edges all ∧ counts' = counts.add all ∧
        counts'.Within fanoutLimit := by
  induction edges generalizing i counts with
  | nil =>
    rw [edgeLoop, Except.ok.injEq]
    constructor
    · rintro rfl
      exact ⟨[], .nil, counts.add_nil.symm, hwithin⟩
    · rintro ⟨all, hall, rfl, _⟩
      cases hall
      exact counts.add_nil.symm
  | cons e rest ih =>
    rw [edgeLoop]
    cases hresolve : resolveEdge nodes i e with
    | error f =>
      simp only [reduceCtorEq, false_iff]
      rintro ⟨all, hall, _⟩
      cases hall with
      | cons hends _ =>
        rw [resolveEdge_of_resolves i hids hnames hends] at hresolve
        cases hresolve
    | ok ends =>
      dsimp only
      rw [increment_self, increment_self]
      split_ifs with hover
      · simp only [false_iff]
        rintro ⟨all, hall, rfl, hfinal⟩
        cases hall with
        | cons hends _ =>
          rw [resolveEdge_of_resolves i hids hnames hends] at hresolve
          cases hresolve
          have hin := (hfinal (slot ends.targetNode ends.targetPort)).1
          have hout := (hfinal (slot ends.sourceNode ends.sourcePort)).2
          simp only [add, countP_cons, decide_true, if_true] at hin hout
          omega
      · rw [not_or, not_lt, not_lt] at hover
        rw [ih _ _ (hwithin.increment hover.1 hover.2)]
        constructor
        · rintro ⟨all, hall, rfl, hfinal⟩
          refine ⟨ends :: all, .cons (resolves_of_resolveEdge hresolve) hall, ?_, hfinal⟩
          exact counts.add_cons ends all
        · rintro ⟨all, hall, rfl, hfinal⟩
          cases hall with
          | cons hends hrest =>
            rw [resolveEdge_of_resolves i hids hnames hends] at hresolve
            cases hresolve
            exact ⟨_, hrest, (counts.add_cons ends _).symm, hfinal⟩

theorem connectedLoop_ok_iff (counts : Counts) (i : ℕ) (nodes : List Node) :
    connectedLoop counts i nodes = .ok () ↔
      ∀ k n, nodes[k]? = some n → ∀ j v, n.ports.elements[j]? = some v →
        hits counts (i + k) j v ≠ 0 := by
  induction nodes generalizing i with
  | nil => simp [connectedLoop]
  | cons n rest ih =>
    rw [connectedLoop]
    have hany : (n.ports.elements.zipIdx).any (fun p => decide (hits counts i p.2 p.1 = 0)) =
        true ↔ ∃ j v, n.ports.elements[j]? = some v ∧ hits counts i j v = 0 := by
      rw [any_eq_true]
      constructor
      · rintro ⟨⟨v, j⟩, hmem, hzero⟩
        exact ⟨j, v, mem_zipIdx_iff_getElem?.mp hmem, by simpa using hzero⟩
      · rintro ⟨j, v, hget, hzero⟩
        exact ⟨(v, j), mem_zipIdx_iff_getElem?.mpr hget, by simpa using hzero⟩
    split_ifs with hzero
    · simp only [false_iff]
      intro h
      obtain ⟨j, v, hget, hhits⟩ := hany.mp hzero
      exact h 0 n rfl j v hget hhits
    · rw [ih]
      constructor
      · intro h k m hm j v hv
        cases k with
        | zero =>
          rw [getElem?_cons_zero, Option.some.injEq] at hm
          subst hm
          exact fun hhits => hzero (hany.mpr ⟨j, v, hv, hhits⟩)
        | succ k =>
          rw [getElem?_cons_succ] at hm
          have hnext := h k m hm j v hv
          rwa [Nat.add_assoc, Nat.add_comm 1 k] at hnext
      · intro h k m hm j v hv
        have hnext := h (k + 1) m (by rw [getElem?_cons_succ]; exact hm) j v hv
        rwa [Nat.add_comm k 1, ← Nat.add_assoc] at hnext

theorem countP_eq_of_forall₂
    {α β : Type} {R : α → β → Prop} {p : α → Bool} {q : β → Bool} {xs : List α} {ys : List β}
    (h : List.Forall₂ R xs ys) (hpq : ∀ x y, R x y → p x = q y) : xs.countP p = ys.countP q := by
  induction h with
  | nil => rfl
  | cons hxy _ ih => rw [countP_cons, countP_cons, ih, hpq _ _ hxy]

theorem exists_of_forall₂_right {α β : Type} {R : α → β → Prop} {xs : List α} {ys : List β} {y : β}
    (h : List.Forall₂ R xs ys) (hy : y ∈ ys) : ∃ x ∈ xs, R x y := by
  induction h with
  | nil => cases hy
  | cons hxy _ ih =>
    rcases mem_cons.mp hy with rfl | hy
    · exact ⟨_, by simp, hxy⟩
    · obtain ⟨x, hx, hR⟩ := ih hy
      exact ⟨x, by simp [hx], hR⟩

theorem port_lt (hfine : NodeFine n)
    (hv : n.ports.elements[j]? = some v) : j < maxPortsPerNode := by
  have hvalid := hfine.valid
  simp only [nodeValid, Bool.and_eq_true, decide_eq_true_eq] at hvalid
  obtain ⟨hlt, _⟩ := List.getElem?_eq_some_iff.mp hv
  cases hports : n.ports with
  | null count =>
    rw [hports] at hlt
    simp [Slice.elements] at hlt
  | array elements =>
    rw [hports] at hlt hvalid
    exact lt_of_lt_of_le hlt hvalid.2

theorem slot_injective {i' j' : ℕ} (hj : j < maxPortsPerNode) (hj' : j' < maxPortsPerNode)
    (h : slot i j = slot i' j') : i = i' ∧ j = j' := by
  simp only [slot, maxPortsPerNode] at *
  omega

/-- Two ports of two nodes are one when their names and their nodes' names are. -/
theorem slot_eq_iff {i' j' : ℕ} {n' : Node} {v' : Port}
    (hfine : ∀ n ∈ nodes, NodeFine n) (hids : (nodes.map Node.id).Nodup) (hn : nodes[i]? = some n)
    (hn' : nodes[i']? = some n') (hv : n.ports.elements[j]? = some v)
    (hv' : n'.ports.elements[j']? = some v') :
    slot i j = slot i' j' ↔ n.id = n'.id ∧ v.name = v'.name := by
  have hmem := hfine n (mem_of_getElem? hn)
  have hmem' := hfine n' (mem_of_getElem? hn')
  constructor
  · intro h
    obtain ⟨rfl, rfl⟩ := slot_injective (port_lt hmem hv) (port_lt hmem' hv') h
    rw [hn] at hn'
    cases hn'
    rw [hv] at hv'
    cases hv'
    exact ⟨rfl, rfl⟩
  · rintro ⟨hid, hname⟩
    have hi := getElem?_unique hids hn hn' hid
    subst hi
    rw [hn] at hn'
    cases hn'
    rw [getElem?_unique hmem.names hv hv' hname]

variable {nodes : List Node} {edges : List Edge} {all : List Ends}
variable {i j : ℕ} {n : Node} {v : Port}

theorem incoming_eq (hfine : ∀ n ∈ nodes, NodeFine n) (hids : (nodes.map Node.id).Nodup)
    (hall : List.Forall₂ (Resolves nodes) edges all) (hn : nodes[i]? = some n)
    (hv : n.ports.elements[j]? = some v) :
    incoming edges n v = (emptyCounts.add all).ingress (slot i j) := by
  simp only [incoming, add, emptyCounts, Nat.zero_add]
  refine countP_eq_of_forall₂ hall ?_
  rintro e ends ⟨source, target, a, b, hj⟩
  rw [← Bool.decide_and]
  refine decide_eq_decide.mpr ?_
  rw [slot_eq_iff hfine hids hj.target_at hn hj.b_at hv, hj.target_id, hj.b_name]

theorem outgoing_eq (hfine : ∀ n ∈ nodes, NodeFine n) (hids : (nodes.map Node.id).Nodup)
    (hall : List.Forall₂ (Resolves nodes) edges all) (hn : nodes[i]? = some n)
    (hv : n.ports.elements[j]? = some v) :
    outgoing edges n v = (emptyCounts.add all).fanout (slot i j) := by
  simp only [outgoing, add, emptyCounts, Nat.zero_add]
  refine countP_eq_of_forall₂ hall ?_
  rintro e ends ⟨source, target, a, b, hj⟩
  rw [← Bool.decide_and]
  refine decide_eq_decide.mpr ?_
  rw [slot_eq_iff hfine hids hj.source_at hn hj.a_at hv, hj.source_id, hj.a_name]

theorem counts_iff {fanoutLimit : ℕ} (hfine : ∀ n ∈ nodes, NodeFine n)
    (hids : (nodes.map Node.id).Nodup) (hall : List.Forall₂ (Resolves nodes) edges all) :
    ((emptyCounts.add all).Within fanoutLimit ∧
      connectedLoop (emptyCounts.add all) 0 nodes = .ok ()) ↔
      (∀ n ∈ nodes, ∀ v ∈ n.ports.elements, v.direction = directionInput → incoming edges n v = 1) ∧
      ∀ n ∈ nodes, ∀ v ∈ n.ports.elements, v.direction = directionOutput →
        1 ≤ outgoing edges n v ∧ outgoing edges n v ≤ fanoutLimit := by
  rw [connectedLoop_ok_iff]
  constructor
  · rintro ⟨hwithin, hconn⟩
    constructor
    · intro n hn v hv hdirection
      obtain ⟨i, hi⟩ := mem_iff_getElem?.mp hn
      obtain ⟨j, hj⟩ := mem_iff_getElem?.mp hv
      have hhits := hconn i n hi j v hj
      have hle := (hwithin (slot i j)).1
      rw [hits, if_pos hdirection, Nat.zero_add] at hhits
      rw [incoming_eq hfine hids hall hi hj]
      omega
    · intro n hn v hv hdirection
      obtain ⟨i, hi⟩ := mem_iff_getElem?.mp hn
      obtain ⟨j, hj⟩ := mem_iff_getElem?.mp hv
      have hhits := hconn i n hi j v hj
      have hle := (hwithin (slot i j)).2
      rw [hits, if_neg (by rw [hdirection]; decide), Nat.zero_add] at hhits
      rw [outgoing_eq hfine hids hall hi hj]
      omega
  · rintro ⟨hinputs, houtputs⟩
    refine ⟨fun k => ⟨?_, ?_⟩, fun i n hi j v hj => ?_⟩
    · by_contra hover
      have hpos : 0 < all.countP (fun x => decide (slot x.targetNode x.targetPort = k)) := by
        simp only [add, emptyCounts] at hover
        omega
      obtain ⟨x, hx, hk⟩ := countP_pos_iff.mp hpos
      obtain ⟨e, _, source, target, a, b, hj⟩ := exists_of_forall₂_right hall hx
      have hone := hinputs target (mem_of_getElem? hj.target_at) b
        (mem_of_getElem? hj.b_at) hj.b_direction
      rw [incoming_eq hfine hids hall hj.target_at hj.b_at, of_decide_eq_true hk] at hone
      omega
    · by_contra hover
      have hpos : 0 < all.countP (fun x => decide (slot x.sourceNode x.sourcePort = k)) := by
        simp only [add, emptyCounts] at hover
        omega
      obtain ⟨x, hx, hk⟩ := countP_pos_iff.mp hpos
      obtain ⟨e, _, source, target, a, b, hj⟩ := exists_of_forall₂_right hall hx
      have hle := (houtputs source (mem_of_getElem? hj.source_at) a
        (mem_of_getElem? hj.a_at) hj.a_direction).2
      rw [outgoing_eq hfine hids hall hj.source_at hj.a_at, of_decide_eq_true hk] at hle
      omega
    · have hn := mem_of_getElem? hi
      have hv := mem_of_getElem? hj
      have hvalid := ((hfine n hn).ports v hv).2.1
      simp only [portValid, Bool.and_eq_true, decide_eq_true_eq] at hvalid
      rw [Nat.zero_add, hits]
      split_ifs with hdirection
      · have hone := hinputs n hn v hv hdirection
        rw [incoming_eq hfine hids hall hi hj] at hone
        omega
      · have hout := hvalid.1.1.1.1.1.2.resolve_left hdirection
        have hpos := (houtputs n hn v hv hout).1
        rw [outgoing_eq hfine hids hall hi hj] at hpos
        omega

end TurboMedia.StreamGraph
