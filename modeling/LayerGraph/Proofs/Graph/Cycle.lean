import LayerGraph.Proofs.Graph.Resolution
import LayerGraph.Proofs.Wiring.Search

/-!
# Cycles of documents

The search on the graph of a document finds a cycle exactly if some walk along edges with both ends
declared returns to where it began. So it sees the declared ids and the edges between them, and
nothing else of the document.
-/

namespace LayerGraph

namespace Wiring

/-- A walk by the vertices that it comes through between its ends. -/
theorem reaches_iff_isChain {V : Type} {w : Wiring V} {u v : V} :
    w.Reaches u v ↔ ∃ inner, List.IsChain w.Leads (u :: (inner ++ [v])) := by
  constructor
  · intro walk
    induction walk using Relation.TransGen.head_induction_on with
    | single arc => exact ⟨[], .cons_cons arc (.singleton v)⟩
    | @head _ next arc _ ih =>
      obtain ⟨inner, chain⟩ := ih
      exact ⟨next :: inner, .cons_cons arc chain⟩
  · rintro ⟨inner, chain⟩
    induction inner generalizing u with
    | nil => exact .single (List.isChain_cons_cons.mp chain).1
    | cons next inner ih =>
      obtain ⟨arc, chain⟩ := List.isChain_cons_cons.mp chain
      exact .head arc (ih chain)

end Wiring

namespace Document

/-- A walk along edges with both ends declared, from an id through others back to that id. With
none between, it is a loop. -/
def ClosedWalk (document : Document) (start : String) (inner : List String) : Prop :=
  List.IsChain document.Connects (start :: (inner ++ [start]))

instance (document : Document) (u v : String) : Decidable (document.Connects u v) :=
  inferInstanceAs (Decidable (∃ edge ∈ document.edges, _))

instance (document : Document) (start : String) (inner : List String) :
    Decidable (document.ClosedWalk start inner) :=
  inferInstanceAs (Decidable (List.IsChain _ _))

/-- The same ids are declared, no matter how often, and the same edges lead from one to another. -/
structure JoinedAlike (document other : Document) : Prop where
  declares : ∀ id, document.Declares id ↔ other.Declares id
  edges : ∀ edge, document.Resolves edge → (edge ∈ document.edges ↔ edge ∈ other.edges)

variable {document other : Document}

theorem hasCycle_iff_exists_closedWalk :
    (Graph.ofDocument document).wiring.hasCycle = true ↔
      ∃ start inner, document.ClosedWalk start inner := by
  rw [Wiring.hasCycle_iff_cyclic (Graph.wellFormed_ofDocument document)]
  simp only [Wiring.Cyclic, Wiring.reaches_iff_isChain, Graph.leads_ofDocument_eq, ClosedWalk]

theorem JoinedAlike.resolves_iff (alike : document.JoinedAlike other) (edge : Edge) :
    document.Resolves edge ↔ other.Resolves edge :=
  and_congr (alike.declares _) (alike.declares _)

theorem JoinedAlike.connects_eq (alike : document.JoinedAlike other) :
    document.Connects = other.Connects := by
  funext u v
  apply propext
  constructor
  · rintro ⟨edge, member, source, target, resolves⟩
    exact ⟨edge, (alike.edges edge resolves).mp member, source, target,
      (alike.resolves_iff edge).mp resolves⟩
  · rintro ⟨edge, member, source, target, resolves⟩
    have resolves := (alike.resolves_iff edge).mpr resolves
    exact ⟨edge, (alike.edges edge resolves).mpr member, source, target, resolves⟩

theorem JoinedAlike.hasCycle_eq (alike : document.JoinedAlike other) :
    (Graph.ofDocument document).wiring.hasCycle = (Graph.ofDocument other).wiring.hasCycle := by
  rw [Bool.eq_iff_iff, hasCycle_iff_exists_closedWalk, hasCycle_iff_exists_closedWalk]
  simp only [ClosedWalk, alike.connects_eq]

theorem joinedAlike_of_perm (nodes : document.nodes.Perm other.nodes)
    (edges : document.edges.Perm other.edges) : document.JoinedAlike other :=
  ⟨fun id => by simp only [Declares, nodes.mem_iff], fun _ _ => edges.mem_iff⟩

/-- A node without an id declares nothing, and one whose id has been declared nothing new. -/
theorem joinedAlike_of_idle {before after : List Node} {node : Node} {edges : List Edge}
    (idle : node.id = "" ∨ node.id ∈ before.map (·.id)) :
    JoinedAlike ⟨before ++ node :: after, edges⟩ ⟨before ++ after, edges⟩ := by
  refine ⟨fun id => and_congr_right fun named => ?_, fun _ _ => Iff.rfl⟩
  constructor
  · rintro ⟨found, member, rfl⟩
    rcases List.mem_append.mp member with early | late
    · exact ⟨found, List.mem_append_left _ early, rfl⟩
    rcases List.mem_cons.mp late with rfl | late
    · obtain ⟨twin, early, same⟩ := List.mem_map.mp (idle.resolve_left named)
      exact ⟨twin, List.mem_append_left _ early, same⟩
    · exact ⟨found, List.mem_append_right _ late, rfl⟩
  · rintro ⟨found, member, rfl⟩
    exact ⟨found, (List.sublist_cons_self node after).append_left before |>.subset member, rfl⟩

theorem joinedAlike_of_dangling {nodes : List Node} {before after : List Edge} {edge : Edge}
    (dangling : ¬ Resolves ⟨nodes, before ++ edge :: after⟩ edge) :
    JoinedAlike ⟨nodes, before ++ edge :: after⟩ ⟨nodes, before ++ after⟩ := by
  refine ⟨fun _ => Iff.rfl, fun other resolves => ?_⟩
  have apart : other ≠ edge := fun same => dangling (same ▸ resolves)
  simp [apart]

/-- The search finds a cycle exactly if there is a closed walk along edges with both ends declared.
It does not depend on the order of nodes or edges, nor on edges with an end that is not declared,
nodes without an id, and later declarations of an id. -/
theorem hasCycle_exact (document : Document) :
    ((Graph.ofDocument document).wiring.hasCycle = true ↔
      ∃ start inner, document.ClosedWalk start inner) ∧
    (∀ other : Document, document.nodes.Perm other.nodes → document.edges.Perm other.edges →
      (Graph.ofDocument other).wiring.hasCycle = (Graph.ofDocument document).wiring.hasCycle) ∧
    (∀ before edge after, document.edges = before ++ edge :: after → ¬ document.Resolves edge →
      (Graph.ofDocument { document with edges := before ++ after }).wiring.hasCycle =
        (Graph.ofDocument document).wiring.hasCycle) ∧
    ∀ before node after, document.nodes = before ++ node :: after →
      node.id = "" ∨ node.id ∈ before.map (·.id) →
      (Graph.ofDocument { document with nodes := before ++ after }).wiring.hasCycle =
        (Graph.ofDocument document).wiring.hasCycle := by
  refine ⟨hasCycle_iff_exists_closedWalk, ?_, ?_, ?_⟩
  · intro other nodes edges
    exact (joinedAlike_of_perm nodes edges).hasCycle_eq.symm
  · intro before edge after split dangling
    obtain ⟨nodes, edges⟩ := document
    subst split
    exact (joinedAlike_of_dangling dangling).hasCycle_eq.symm
  · intro before node after split idle
    obtain ⟨nodes, edges⟩ := document
    subst split
    exact (joinedAlike_of_idle idle).hasCycle_eq.symm

/-- Two layers that feed each other, one of them declared twice, a node without an id, and an edge
from an id that is not declared. -/
def tangled : Document where
  nodes := [.ofKind "left" .add .empty, .ofKind "" .add .empty, .ofKind "right" .relu .empty,
    .ofKind "left" .relu .empty]
  edges := [⟨"left", "right"⟩, ⟨"lost", "left"⟩, ⟨"right", "left"⟩]

theorem hasCycle_exact_tangled :
    ((Graph.ofDocument tangled).wiring.hasCycle = true ∧ tangled.ClosedWalk "left" ["right"]) ∧
    (Graph.ofDocument ⟨tangled.nodes.reverse, tangled.edges.reverse⟩).wiring.hasCycle =
      (Graph.ofDocument tangled).wiring.hasCycle ∧
    (¬ tangled.Resolves ⟨"lost", "left"⟩ ∧
      (Graph.ofDocument { tangled with
        edges := [⟨"left", "right"⟩, ⟨"right", "left"⟩] }).wiring.hasCycle =
          (Graph.ofDocument tangled).wiring.hasCycle) ∧
    (Graph.ofDocument { tangled with nodes := tangled.nodes.take 3 }).wiring.hasCycle =
      (Graph.ofDocument tangled).wiring.hasCycle := by
  have walk : tangled.ClosedWalk "left" ["right"] := by decide
  have dangling : ¬ tangled.Resolves ⟨"lost", "left"⟩ := by decide
  obtain ⟨exact, order, edges, nodes⟩ := hasCycle_exact tangled
  refine ⟨⟨exact.mpr ⟨_, _, walk⟩, walk⟩, ?_, ⟨dangling, ?_⟩, ?_⟩
  · exact order _ (List.reverse_perm _).symm (List.reverse_perm _).symm
  · exact edges [⟨"left", "right"⟩] _ [⟨"right", "left"⟩] rfl dangling
  · exact (nodes (tangled.nodes.take 3) (.ofKind "left" .relu .empty) [] rfl (.inr (by decide)))

end Document

end LayerGraph
