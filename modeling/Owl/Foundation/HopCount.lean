import Mathlib.Combinatorics.SimpleGraph.Metric

/-! # Hop counts along parent pointers

Every vertex carries a hop count and a value. When every vertex with a positive
count has a parent with the count one lower and the same value, the value comes
from a vertex with count zero (`HopCount.exists_root`), and if parents are
neighbours in a graph, the count is at least the distance from that vertex
(`HopCount.dist_le`).
-/

namespace HopCount

variable {Vertex Value : Type*} (count : Vertex → ℕ)

/-- Following parents down to count zero finds the origin of a value. -/
theorem exists_root (value : Vertex → Value)
    (descends : ∀ vertex, count vertex ≠ 0 →
      ∃ parent, count parent + 1 = count vertex ∧ value parent = value vertex)
    (vertex : Vertex) : ∃ root, count root = 0 ∧ value root = value vertex := by
  induction level : count vertex generalizing vertex with
  | zero => exact ⟨vertex, level, rfl⟩
  | succ below ih =>
      obtain ⟨parent, lower, carried⟩ := descends vertex (by omega)
      obtain ⟨root, ground, origin⟩ := ih parent (by omega)
      exact ⟨root, ground, origin.trans carried⟩

variable {graph : SimpleGraph Vertex}

/-- A count that descends along edges to a root is at least the distance from it. -/
theorem dist_le (connected : graph.Connected) {root : Vertex} (Marked : Vertex → Prop)
    (ground : ∀ vertex, Marked vertex → count vertex = 0 → vertex = root)
    (descends : ∀ vertex, Marked vertex → count vertex ≠ 0 →
      ∃ parent, graph.Adj parent vertex ∧ Marked parent ∧ count parent + 1 = count vertex)
    {vertex : Vertex} (marked : Marked vertex) : graph.dist root vertex ≤ count vertex := by
  induction level : count vertex generalizing vertex with
  | zero =>
      rw [ground vertex marked level, SimpleGraph.dist_self]
  | succ below ih =>
      obtain ⟨parent, edge, parentMarked, lower⟩ := descends vertex marked (by omega)
      have near := ih parentMarked (by omega)
      have step : graph.dist parent vertex = 1 := SimpleGraph.dist_eq_one_iff_adj.mpr edge
      have triangle := connected.dist_triangle (u := root) (v := parent) (w := vertex)
      omega

/-- In a connected graph every vertex but the root has a neighbour closer to the root. -/
theorem exists_closer (connected : graph.Connected) {root vertex : Vertex}
    (different : vertex ≠ root) :
    ∃ closer, graph.Adj closer vertex ∧ graph.dist root closer + 1 = graph.dist root vertex := by
  obtain ⟨walk, shortest⟩ := connected.exists_walk_length_eq_dist vertex root
  cases walk with
  | nil => exact absurd rfl different
  | cons edge rest =>
      rename_i closer
      refine ⟨closer, edge.symm, ?_⟩
      have bound := SimpleGraph.dist_le rest
      have step : graph.dist closer vertex = 1 := SimpleGraph.dist_eq_one_iff_adj.mpr edge.symm
      have triangle := connected.dist_triangle (u := root) (v := closer) (w := vertex)
      rw [SimpleGraph.Walk.length_cons] at shortest
      rw [SimpleGraph.dist_comm] at bound shortest
      omega

end HopCount
