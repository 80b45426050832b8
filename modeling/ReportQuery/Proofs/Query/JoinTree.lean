import Mathlib.Combinatorics.SimpleGraph.Acyclic
import ReportQuery.Proofs.Query.Joining

set_option autoImplicit false
set_option relaxedAutoImplicit false

/-!
Relations as the edges of a multigraph whose vertices are tables. Joining reaches exactly the
tables that are connected to the anchor, and it leaves no relation over exactly when the relations
form a tree around the anchor.
-/

namespace ReportQuery.Query

open Schema (Snapshot Table Relation)
open Text (lower)

/-- The edge of a relation: its two tables, by their keys in lower case. -/
def edge (relation : Relation) : Sym2 String :=
  s(lower relation.fromTable, lower relation.toTable)

/-- Tables are adjacent when they are the two sides of one of the relations. -/
def joinGraph (relations : List Relation) : SimpleGraph String :=
  .fromEdgeSet {e | e ∈ relations.map edge}

/-- The anchor and the tables of the relations. -/
def joinVertices (anchor : String) (relations : List Relation) : Set String :=
  {key | key = anchor ∨ ∃ relation ∈ relations, key ∈ edge relation}

/-- The relations and the anchor form a tree. -/
structure IsJoinTree (anchor : String) (relations : List Relation) : Prop where
  connected : ∀ key ∈ joinVertices anchor relations, (joinGraph relations).Reachable anchor key
  noCycle : (joinGraph relations).IsAcyclic
  noParallelEdges : (relations.map edge).Nodup
  noLoop : ∀ relation ∈ relations, ¬ (edge relation).IsDiag

theorem IsJoinTree.of_perm {anchor : String} {relations others : List Relation}
    (tree : IsJoinTree anchor relations) (h : relations.Perm others) :
    IsJoinTree anchor others := by
  have graphs : joinGraph others = joinGraph relations := by
    simp only [joinGraph, List.mem_map, h.mem_iff]
  constructor
  · intro key member
    rw [graphs]
    refine tree.connected key ?_
    simpa only [joinVertices, Set.mem_ofPred_eq, h.mem_iff] using member
  · exact graphs ▸ tree.noCycle
  · exact (h.map edge).nodup_iff.mp tree.noParallelEdges
  · exact fun relation member => tree.noLoop relation (h.mem_iff.mpr member)

section Graph

variable {relations others : List Relation} {relation : Relation}

theorem joinGraph_adj {u v : String} :
    (joinGraph relations).Adj u v ↔ (∃ relation ∈ relations, edge relation = s(u, v)) ∧ u ≠ v := by
  simp [joinGraph]

private theorem joinGraph_mono (h : relations ⊆ others) : joinGraph relations ≤ joinGraph others :=
  SimpleGraph.fromEdgeSet_mono fun _ member => List.map_subset edge h member

private theorem joinGraph_append_singleton {u v : String} (ends : edge relation = s(u, v)) :
    joinGraph (relations ++ [relation]) = joinGraph relations ⊔ SimpleGraph.edge u v := by
  rw [joinGraph, joinGraph, SimpleGraph.edge, ← SimpleGraph.fromEdgeSet_union]
  congr 1
  ext e
  simp [ends, or_comm]

/-- A set of tables that no edge leaves holds whatever can be reached from within. -/
private theorem mem_of_reachable {graph : SimpleGraph String} (keys : Set String)
    (closed : ∀ u v, graph.Adj u v → u ∈ keys → v ∈ keys) {u v : String}
    (path : graph.Reachable u v) (start : u ∈ keys) : v ∈ keys := by
  rw [SimpleGraph.reachable_iff_reflTransGen] at path
  induction path with
  | refl => exact start
  | tail _ step ih => exact closed _ _ step ih

/-- Whatever is connected to the anchor is the anchor or a table of the relations. -/
theorem mem_joinVertices_of_reachable {anchor key : String}
    (path : (joinGraph relations).Reachable anchor key) : key ∈ joinVertices anchor relations := by
  refine mem_of_reachable (joinVertices anchor relations) ?_ path (.inl rfl)
  intro u v adjacent _
  obtain ⟨⟨relation, member, ends⟩, _⟩ := joinGraph_adj.mp adjacent
  exact .inr ⟨relation, member, ends ▸ Sym2.mem_mk_right u v⟩

end Graph

namespace Joining

variable {snapshot : Snapshot} {anchor : String} {state next last : Joining} {relation : Relation}
  {relations done applied unused : List Relation}

theorem hasJoined_iff {key : String} : state.hasJoined key = true ↔ lower key ∈ state.joined :=
  List.contains_iff_mem

/-- The joined tables are the vertices of a tree whose edges are the applied relations. -/
structure Spans (anchor : String) (applied : List Relation) (state : Joining) : Prop where
  anchor_mem : anchor ∈ state.joined
  closed : ∀ relation ∈ applied, ∀ key ∈ edge relation, key ∈ state.joined
  reached : ∀ key ∈ state.joined, (joinGraph applied).Reachable anchor key
  acyclic : (joinGraph applied).IsAcyclic
  distinct : (applied.map edge).Nodup
  noLoop : ∀ relation ∈ applied, ¬ (edge relation).IsDiag

/-- A relation that can be applied leads from a joined table to one that is not joined. -/
theorem newTable_of_half (half : ¬ state.IsStuck relation) :
    newTable relation (!state.hasJoined relation.fromTable) ∈ state.joined ∧
      newTable relation (state.hasJoined relation.fromTable) ∉ state.joined := by
  unfold IsStuck at half
  cases fromJoined : state.hasJoined relation.fromTable with
  | true =>
    rw [fromJoined] at half
    exact ⟨hasJoined_iff.mp fromJoined, fun toJoined => half (hasJoined_iff.mpr toJoined).symm⟩
  | false =>
    rw [fromJoined] at half
    refine ⟨hasJoined_iff.mp (Bool.ne_false_iff.mp (Ne.symm half)), fun joined => ?_⟩
    have joined : state.hasJoined relation.fromTable = true := hasJoined_iff.mpr joined
    rw [fromJoined] at joined
    cases joined

private theorem exists_ends (half : ¬ state.IsStuck relation) :
    ∃ old, edge relation = s(old, newTable relation (state.hasJoined relation.fromTable)) ∧
      old ∈ state.joined ∧ newTable relation (state.hasJoined relation.fromTable) ∉ state.joined := by
  obtain ⟨old, new⟩ := newTable_of_half half
  refine ⟨_, ?_, old, new⟩
  cases state.hasJoined relation.fromTable with
  | true => rfl
  | false => exact Sym2.eq_swap

/-- Applying a relation adds a leaf to the tree. -/
theorem Spans.apply (spans : Spans anchor done state) (half : ¬ state.IsStuck relation)
    (step : state.apply snapshot relation (state.hasJoined relation.fromTable) = .ok next) :
    Spans anchor (done ++ [relation]) next := by
  obtain ⟨old, ends, oldJoined, fresh⟩ := exists_ends half
  have joined := joined_apply step
  generalize newTable relation (state.hasJoined relation.fromTable) = new at ends fresh joined
  have different : old ≠ new := fun same => fresh (same ▸ oldJoined)
  have unreached : ¬ (joinGraph done).Reachable old new := by
    intro path
    refine fresh (mem_of_reachable {key | key ∈ state.joined} ?_ path oldJoined)
    intro u v adjacent _
    obtain ⟨⟨r, member, hr⟩, _⟩ := joinGraph_adj.mp adjacent
    exact spans.closed r member v (hr ▸ Sym2.mem_mk_right u v)
  have grows : joinGraph done ≤ joinGraph (done ++ [relation]) :=
    joinGraph_mono (List.subset_append_left done [relation])
  have newEdge : edge relation ∉ done.map edge := by
    intro member
    obtain ⟨r, member, hr⟩ := List.mem_map.mp member
    exact fresh (spans.closed r member new (hr ▸ ends ▸ Sym2.mem_mk_right old new))
  constructor
  · rw [joined]
    exact List.mem_append_left _ spans.anchor_mem
  · intro r member key hkey
    rw [joined]
    rcases List.mem_append.mp member with member | member
    · exact List.mem_append_left _ (spans.closed r member key hkey)
    · rw [List.mem_singleton.mp member, ends] at hkey
      rcases Sym2.mem_iff.mp hkey with rfl | rfl
      · exact List.mem_append_left _ oldJoined
      · simp
  · intro key member
    rw [joined] at member
    rcases List.mem_append.mp member with member | member
    · exact (spans.reached key member).mono grows
    · rw [List.mem_singleton.mp member]
      have last : (joinGraph (done ++ [relation])).Adj old new :=
        joinGraph_adj.mpr ⟨⟨relation, by simp, ends⟩, different⟩
      exact ((spans.reached old oldJoined).mono grows).trans last.reachable
  · rw [joinGraph_append_singleton ends]
    exact spans.acyclic.sup_edge_of_not_reachable unreached
  · rw [List.map_append, List.nodup_append]
    refine ⟨spans.distinct, by simp, ?_⟩
    intro a ha b hb same
    exact newEdge (List.mem_singleton.mp hb ▸ same ▸ ha)
  · intro r member
    rcases List.mem_append.mp member with member | member
    · exact spans.noLoop r member
    · rw [List.mem_singleton.mp member, ends]
      exact different

theorem Spans.applies (spans : Spans anchor done state)
    (steps : Applies snapshot state applied last) : Spans anchor (done ++ applied) last := by
  induction steps generalizing done with
  | nil => simpa using spans
  | cons half step _ ih => simpa using ih (spans.apply half step)

theorem spans_start (anchor : Table) (tables : List Table) :
    Spans (lower anchor.key) [] (start anchor tables) where
  anchor_mem := List.mem_singleton_self _
  closed := by simp
  reached := by
    intro key member
    rw [List.mem_singleton.mp member]
  acyclic := by simp [joinGraph]
  distinct := List.nodup_nil
  noLoop := by simp

/-- Where joining comes to rest, the joined tables are those connected to the anchor. -/
theorem Spans.mem_joined_iff (spans : Spans anchor applied last)
    (split : relations.Perm (applied ++ unused))
    (stuck : ∀ relation ∈ unused, last.IsStuck relation) {key : String} :
    key ∈ last.joined ↔ (joinGraph relations).Reachable anchor key := by
  constructor
  · intro member
    have fewer : applied ⊆ relations := fun r h => split.mem_iff.mpr (List.mem_append_left _ h)
    exact (spans.reached key member).mono (joinGraph_mono fewer)
  · intro path
    refine mem_of_reachable {key | key ∈ last.joined} ?_ path spans.anchor_mem
    intro u v adjacent joined
    obtain ⟨⟨r, member, ends⟩, _⟩ := joinGraph_adj.mp adjacent
    rcases List.mem_append.mp (split.mem_iff.mp member) with member | member
    · exact spans.closed r member v (ends ▸ Sym2.mem_mk_right u v)
    · have both : lower r.fromTable ∈ last.joined ↔ lower r.toTable ∈ last.joined := by
        rw [← hasJoined_iff, ← hasJoined_iff, stuck r member]
      rcases Sym2.eq_iff.mp ends with ⟨rfl, rfl⟩ | ⟨rfl, rfl⟩
      · exact both.mp joined
      · exact both.mpr joined

/-- Relations that were all applied form a tree with the anchor. -/
theorem Spans.isJoinTree (spans : Spans anchor applied last) : IsJoinTree anchor applied where
  connected := by
    rintro key (rfl | ⟨relation, member, hkey⟩)
    · exact .rfl
    · exact spans.reached key (spans.closed relation member key hkey)
  noCycle := spans.acyclic
  noParallelEdges := spans.distinct
  noLoop := spans.noLoop

/-- Of relations that form a tree with the anchor none is left over. -/
theorem Spans.unused_eq_nil (spans : Spans anchor applied last)
    (split : relations.Perm (applied ++ unused))
    (stuck : ∀ relation ∈ unused, last.IsStuck relation) (tree : IsJoinTree anchor relations) :
    unused = [] := by
  by_contra left
  obtain ⟨relation, leftOver⟩ := List.exists_mem_of_ne_nil unused left
  have member : relation ∈ relations := split.mem_iff.mpr (List.mem_append_right applied leftOver)
  have joined : ∀ key ∈ edge relation, key ∈ last.joined := fun key hkey =>
    (spans.mem_joined_iff split stuck).mpr (tree.connected key (.inr ⟨relation, member, hkey⟩))
  have path : (joinGraph applied).Reachable (lower relation.fromTable) (lower relation.toTable) :=
    (spans.reached _ (joined _ (Sym2.mem_mk_left _ _))).symm.trans
      (spans.reached _ (joined _ (Sym2.mem_mk_right _ _)))
  have fewer : applied ++ [relation] ⊆ relations := by
    intro r h
    rcases List.mem_append.mp h with h | h
    · exact split.mem_iff.mpr (List.mem_append_left unused h)
    · exact List.mem_singleton.mp h ▸ member
  have acyclic := tree.noCycle.anti (joinGraph_mono fewer)
  rw [joinGraph_append_singleton rfl, SimpleGraph.isAcyclic_sup_fromEdgeSet_iff] at acyclic
  rcases acyclic.2 path with loop | adjacent
  · exact tree.noLoop relation member loop
  · obtain ⟨⟨r, earlier, parallel⟩, _⟩ := joinGraph_adj.mp adjacent
    have distinct := (split.map edge).nodup_iff.mp tree.noParallelEdges
    rw [List.map_append, List.nodup_append] at distinct
    exact distinct.2.2 (edge r) (List.mem_map_of_mem earlier) (edge relation)
      (List.mem_map_of_mem leftOver) parallel

end Joining

end ReportQuery.Query
