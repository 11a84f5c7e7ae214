import CircuitGrid.Proofs.BuiltIn
import CircuitGrid.Proofs.Layout
import CircuitGrid.Proofs.Bits.Action

/-!
# What a circuit does to bits

A column with controls exchanges its swap pair and flips its X cells when every `•` wire is on and
every `◦` wire is off. A column without controls exchanges its swap pair and then applies its X
cells, its CNOTs, its placeholders and its nested circuits. The columns of a nested circuit act on
wires shifted by the row of its gate.

A gate may carry the mark of a cell without effect. Whether placeholders and nested circuits heed
that mark is a parameter of their meaning.

* `Gate.isClassical`: the cells that such circuits are made of;
* `Circuit.act`: what a circuit does to bits;
* **`Circuit.within_act`**: a well-formed circuit acts on its own wires.
-/

namespace CircuitGrid

/-! ## Cells -/

/-- The ids of the built-in gates that move and flip bits or shape their column. -/
def classicalIds : List String := ["•", "◦", "X", "CNOT", "Swap", "…"]

/-- A built-in gate that moves or flips bits, a nested circuit or a placeholder of a controlled NOT,
the latter two without operations of their own. -/
def Gate.isClassical (g : Gate) : Bool :=
  classicalIds.any g.isCell ||
    match g.role, g.exports with
    | .nested _, none => true
    | .nonLocal payload, none => payload.kind = .cx
    | _, _ => false

/-- The payload of a placeholder; there is none in a gate marked as being without effect if marks
are heeded. -/
def Gate.link? (heed : Bool) (g : Gate) : Option Placeholder :=
  if heed && g.inert then none else g.placeholder?

namespace Column

/-- The rows of the built-in gates with an id. -/
def rowsOf (id : String) (column : Column Gate) : List Nat :=
  ((placed column).filter (·.2.isCell id)).map (·.1)

/-- The placeholders of a column that have an effect. -/
def links (heed : Bool) (column : Column Gate) : List Placeholder :=
  (placed column).filterMap (·.2.link? heed)

/-- Whether the column has a control. -/
def isControlled (column : Column Gate) : Bool :=
  !(rowsOf "•" column ++ rowsOf "◦" column).isEmpty

/-- Whether every `•` wire is on and every `◦` wire is off. -/
def isMet (offset : Nat) (column : Column Gate) (b : Bits) : Bool :=
  ((rowsOf "•" column).all fun row => b (row + offset)) &&
    (rowsOf "◦" column).all fun row => !b (row + offset)

/-- Exchanges the two wires of the swap pair. -/
def exchangePair (offset : Nat) (column : Column Gate) (b : Bits) : Bits :=
  match rowsOf "Swap" column with
  | [u, v] => b.exchange (u + offset) (v + offset)
  | _ => b

/-- Flips the wires of the X cells. -/
def flipCells (offset : Nat) (column : Column Gate) (b : Bits) : Bits :=
  (rowsOf "X" column).foldl (fun b row => b.flip (row + offset)) b

/-- Applies the CNOTs, each between two neighbouring wires. -/
def applyPairs (offset : Nat) (column : Column Gate) (b : Bits) : Bits :=
  (rowsOf "CNOT" column).foldl
    (fun b row => b.when [row + offset] (.flip (row + 1 + offset))) b

/-- Applies the placeholders: their source controls their target. -/
def applyLinks (heed : Bool) (offset : Nat) (column : Column Gate) (b : Bits) : Bits :=
  (links heed column).foldl
    (fun b p => b.when [p.source + offset] (.flip (p.target + offset))) b

end Column

/-! ## Circuits -/

mutual

/-- What a circuit does to bits when its first wire is `offset`. -/
def Grid.act (heed : Bool) (offset : Nat) : Grid Gate → Bits → Bits
  | ⟨_, columns⟩ => Gate.actColumns heed offset columns
termination_by structural c => c

/-- What the circuit in a nested gate does to bits when the gate stands on the given wire. -/
def Gate.act (heed : Bool) (wire : Nat) : Gate → Bits → Bits
  | ⟨_, _, role, _, _, _, _, inert, _⟩, b =>
    match role with
    | .nested body => if heed && inert then b else Grid.act heed wire body b
    | _ => b
termination_by structural g => g

/-- What columns do to bits, one after the other. -/
def Gate.actColumns (heed : Bool) (offset : Nat) : List (List (Option Gate)) → Bits → Bits
  | [], b => b
  | column :: rest, b =>
    Gate.actColumns heed offset rest <|
      if Column.isControlled column then
        if Column.isMet offset column b then
          Column.flipCells offset column (Column.exchangePair offset column b)
        else b
      else
        Gate.actCells heed offset 0 column <| Column.applyLinks heed offset column <|
          Column.applyPairs offset column <| Column.flipCells offset column <|
            Column.exchangePair offset column b
termination_by structural columns => columns

/-- What the nested circuits among cells do to bits, one after the other. -/
def Gate.actCells (heed : Bool) (offset : Nat) : Nat → List (Option Gate) → Bits → Bits
  | _, [], b => b
  | row, none :: rest, b => Gate.actCells heed offset (row + 1) rest b
  | row, some g :: rest, b =>
    Gate.actCells heed offset (row + 1) rest (Gate.act heed (row + offset) g b)
termination_by structural _ cells => cells

end

/-- What a circuit does to bits. Cells marked as being without effect do nothing if marks are
heeded. -/
def Circuit.act (heed : Bool) (c : Circuit) : Bits → Bits := Grid.act heed 0 c

variable {heed : Bool} {offset : Nat}

theorem Gate.act_of_body? {g : Gate} {body : Circuit} (h : g.body? = some body) {wire : Nat}
    (b : Bits) :
    g.act heed wire b = if heed && g.inert then b else Grid.act heed wire body b := by
  have role := Gate.role_of_body? h
  cases g
  simp only at role
  subst role
  rfl

theorem Gate.act_of_no_body {g : Gate} (h : g.body? = none) {wire : Nat} (b : Bits) :
    g.act heed wire b = b := by
  cases g with
  | mk id title role height exports matrix entangler inert height_pos =>
    cases role with
    | nested body => cases h
    | _ => rfl

theorem Gate.actCells_eq {row : Nat} {cells : Column Gate} (b : Bits) :
    Gate.actCells heed offset row cells b =
      (Column.placedFrom row cells).foldl (fun b p => p.2.act heed (p.1 + offset) b) b := by
  induction cells generalizing row b with
  | nil => rfl
  | cons cell rest ih =>
    cases cell with
    | none => rw [Gate.actCells, ih, Column.placedFrom]
    | some g => rw [Gate.actCells, ih, Column.placedFrom, List.foldl_cons]

/-- What a column does to bits. -/
def Column.act (heed : Bool) (offset : Nat) (column : Column Gate) (b : Bits) : Bits :=
  if isControlled column then
    if isMet offset column b then flipCells offset column (exchangePair offset column b) else b
  else
    (placed column).foldl (fun b p => p.2.act heed (p.1 + offset) b) <|
      applyLinks heed offset column <| applyPairs offset column <| flipCells offset column <|
        exchangePair offset column b

theorem Gate.actColumns_cons {column : Column Gate} {rest : List (Column Gate)} (b : Bits) :
    Gate.actColumns heed offset (column :: rest) b =
      Gate.actColumns heed offset rest (Column.act heed offset column b) := by
  rw [Gate.actColumns, Column.act, Gate.actCells_eq]
  rfl

/-- Columns act one after the other. -/
theorem Gate.actColumns_eq (columns : List (Column Gate)) (b : Bits) :
    Gate.actColumns heed offset columns b =
      columns.foldl (fun b column => Column.act heed offset column b) b := by
  induction columns generalizing b with
  | nil => rfl
  | cons column rest ih => rw [Gate.actColumns_cons, ih, List.foldl_cons]

/-! ## The data of the cells -/

namespace Gate

variable {g : Gate}

theorem id_of_isCell {id : String} (h : g.isCell id) : g.id = id := by
  simp only [isCell, Bool.and_eq_true, beq_iff_eq] at h
  exact h.2

theorem isCell_eq_false {id other : String} (h : g.isCell id) (ne : id ≠ other) :
    g.isCell other = false := by
  rw [isCell, id_of_isCell h, beq_false_of_ne ne, Bool.and_false]

theorem role_of_on (h : g.isCell "•") : g.role = .control :=
  ((isCell_iff rfl).mp h).role.eq fun _ => nofun

theorem role_of_off (h : g.isCell "◦") : g.role = .antiControl :=
  ((isCell_iff rfl).mp h).role.eq fun _ => nofun

theorem role_of_swap (h : g.isCell "Swap") : g.role = .swapHalf :=
  ((isCell_iff rfl).mp h).role.eq fun _ => nofun

theorem inert_of_spacer (h : g.isCell "…") : g.role = .unitary ∧ g.inert = true := by
  have same := (isCell_iff rfl).mp h
  exact ⟨same.role.eq fun _ => nofun, same.inert.symm⟩

/-- The X cell is the plain NOT of one row, under a control the controlled NOT. -/
theorem data_of_not (h : g.isCell "X") : g.role = .unitary ∧ g.height = 1 ∧ g.inert = false ∧
    g.exports = some ⟨.x, some .cx, [], []⟩ := by
  have same := (isCell_iff rfl).mp h
  exact ⟨same.role.eq fun _ => nofun, same.height.symm, same.inert.symm,
    Export.eq_of_beq same.exports⟩

/-- The CNOT cell takes two rows and has no form under a control. -/
theorem data_of_pair (h : g.isCell "CNOT") : g.role = .unitary ∧ g.height = 2 ∧ g.inert = false ∧
    g.exports = some ⟨.cx, none, [], []⟩ := by
  have same := (isCell_iff rfl).mp h
  exact ⟨same.role.eq fun _ => nofun, same.height.symm, same.inert.symm,
    Export.eq_of_beq same.exports⟩

theorem isCell_of_nested {body : Circuit} (role : g.role = .nested body) (id : String) :
    g.isCell id = false := by
  by_contra h
  simp only [isCell, Bool.not_eq_false, Bool.and_eq_true] at h
  exact (role_of_isBuiltIn h.1).1 body role

theorem isCell_of_nonLocal {payload : Placeholder} (role : g.role = .nonLocal payload)
    (id : String) : g.isCell id = false := by
  by_contra h
  simp only [isCell, Bool.not_eq_false, Bool.and_eq_true] at h
  exact (role_of_isBuiltIn h.1).2 payload role

theorem role_of_placeholder? {payload : Placeholder} (h : g.placeholder? = some payload) :
    g.role = .nonLocal payload := by
  unfold placeholder? at h
  split at h
  · next role => rw [role, Option.some.inj h]
  · cases h

theorem role_of_link? {heed : Bool} {payload : Placeholder} (h : g.link? heed = some payload) :
    g.role = .nonLocal payload := by
  unfold link? at h
  split at h
  · cases h
  · exact role_of_placeholder? h

theorem link?_eq_none {heed : Bool} (role : ∀ payload, g.role ≠ .nonLocal payload) :
    g.link? heed = none := by
  cases h : g.link? heed with
  | none => rfl
  | some payload => exact absurd (role_of_link? h) (role payload)

/-- The cells that circuits on bits are made of. -/
theorem classical_cases (h : g.isClassical) :
    g.isCell "•" ∨ g.isCell "◦" ∨ g.isCell "X" ∨ g.isCell "CNOT" ∨ g.isCell "Swap" ∨
      g.isCell "…" ∨ (∃ body, g.role = .nested body ∧ g.exports = none) ∨
        ∃ payload, g.role = .nonLocal payload ∧ payload.kind = .cx ∧ g.exports = none := by
  simp only [isClassical, classicalIds, List.any_cons, List.any_nil, Bool.or_false,
    Bool.or_eq_true] at h
  obtain cell | other := h
  · obtain h | h | h | h | h | h := cell <;> simp [h]
  · split at other
    · next body role exports => simp [role, exports]
    · next payload role exports => simp_all
    · cases other

end Gate

/-! ## Cells act on their own wires -/

/-- The wires that a gate covers when its top cell stands in a row. -/
def Gate.wiresAt (offset row : Nat) (g : Gate) : Set Nat := { w | ∃ r ∈ g.rowsAt row, r + offset = w }

theorem Gate.mem_wiresAt {row r : Nat} {g : Gate} (h : r ∈ g.rowsAt row) :
    r + offset ∈ g.wiresAt offset row := ⟨r, h, rfl⟩

/-- The gates of a fitting column cover disjoint sets of wires. -/
theorem Column.Fits.disjoint {wires : Nat} {column : Column Gate} (fits : Fits wires column)
    (offset : Nat) : (placed column).Pairwise fun p q =>
      Disjoint (p.2.wiresAt offset p.1) (q.2.wiresAt offset q.1) := by
  have apart := (List.nodup_flatMap.mp fits.nodup).2
  refine apart.imp fun {p q} disjoint => Set.disjoint_left.mpr ?_
  rintro w ⟨r, covers, rfl⟩ ⟨r', covers', same⟩
  have : r' = r := by omega
  subst this
  exact disjoint covers covers'

namespace Bits

/-- What a cell does to bits if it is an X cell. -/
def flipAt (offset : Nat) (p : Nat × Gate) (b : Bits) : Bits :=
  if p.2.isCell "X" then b.flip (p.1 + offset) else b

/-- What a cell does to bits if it is a CNOT. -/
def pairAt (offset : Nat) (p : Nat × Gate) (b : Bits) : Bits :=
  if p.2.isCell "CNOT" then b.when [p.1 + offset] (.flip (p.1 + 1 + offset)) else b

/-- What a cell does to bits if it is a placeholder. -/
def linkAt (heed : Bool) (offset : Nat) (p : Nat × Gate) (b : Bits) : Bits :=
  match p.2.link? heed with
  | some payload => b.when [payload.source + offset] (.flip (payload.target + offset))
  | none => b

/-- What a cell does to bits if it is a nested circuit. -/
def nestedAt (heed : Bool) (offset : Nat) (p : Nat × Gate) (b : Bits) : Bits :=
  p.2.act heed (p.1 + offset) b

/-- What a cell does to bits in a column without controls, its part in swaps apart. -/
def cellAt (heed : Bool) (offset : Nat) (p : Nat × Gate) (b : Bits) : Bits :=
  nestedAt heed offset p (linkAt heed offset p (pairAt offset p (flipAt offset p b)))

theorem within_flipAt (p : Nat × Gate) : Within (p.2.wiresAt offset p.1) (flipAt offset p) := by
  obtain ⟨row, g⟩ := p
  unfold flipAt
  split
  · next cell =>
    change g.isCell "X" = true at cell
    obtain ⟨role, height, -, -⟩ := Gate.data_of_not cell
    apply within_flip
    apply Gate.mem_wiresAt
    simp [Gate.rowsAt, role, height]
  · exact within_id _

theorem within_pairAt (p : Nat × Gate) : Within (p.2.wiresAt offset p.1) (pairAt offset p) := by
  obtain ⟨row, g⟩ := p
  unfold pairAt
  split
  · next cell =>
    change g.isCell "CNOT" = true at cell
    obtain ⟨role, height, -, -⟩ := Gate.data_of_pair cell
    have covers : row ∈ g.rowsAt row ∧ row + 1 ∈ g.rowsAt row := by
      simp [Gate.rowsAt, role, height]
    refine within_when ?_ (within_flip (Gate.mem_wiresAt covers.2))
    intro c inside
    rw [List.mem_singleton.mp inside]
    exact Gate.mem_wiresAt covers.1
  · exact within_id _

theorem within_linkAt (p : Nat × Gate) :
    Within (p.2.wiresAt offset p.1) (linkAt heed offset p) := by
  obtain ⟨row, g⟩ := p
  unfold linkAt
  split
  · next payload found =>
    have role : g.role = .nonLocal payload := Gate.role_of_link? found
    have covers : payload.source ∈ g.rowsAt row ∧ payload.target ∈ g.rowsAt row := by
      simp only [Gate.rowsAt, role, Placeholder.top, Placeholder.bottom, List.mem_cons,
        List.not_mem_nil, or_false]
      omega
    refine within_when ?_ (within_flip (Gate.mem_wiresAt covers.2))
    intro c inside
    rw [List.mem_singleton.mp inside]
    exact Gate.mem_wiresAt covers.1
  · exact within_id _

/-! ## What each kind of cell does -/

section

variable {g : Gate} {row : Nat}

theorem nestedAt_of_leaf (role : ∀ body, g.role ≠ .nested body) (b : Bits) :
    nestedAt heed offset (row, g) b = b :=
  Gate.act_of_no_body (Gate.body?_eq_none role) b

theorem linkAt_of_local (role : ∀ payload, g.role ≠ .nonLocal payload) (b : Bits) :
    linkAt heed offset (row, g) b = b := by
  simp [linkAt, Gate.link?_eq_none role]

theorem cellAt_of_not (h : g.isCell "X") (b : Bits) :
    cellAt heed offset (row, g) b = b.flip (row + offset) := by
  have role := (Gate.data_of_not h).1
  rw [cellAt, nestedAt_of_leaf (by simp [role]), linkAt_of_local (by simp [role])]
  simp [pairAt, flipAt, h, Gate.isCell_eq_false h]

theorem cellAt_of_pair (h : g.isCell "CNOT") (b : Bits) :
    cellAt heed offset (row, g) b = b.when [row + offset] (flip (row + 1 + offset)) := by
  have role := (Gate.data_of_pair h).1
  rw [cellAt, nestedAt_of_leaf (by simp [role]), linkAt_of_local (by simp [role])]
  simp [pairAt, flipAt, h, Gate.isCell_eq_false h]

theorem cellAt_of_nested {body : Circuit} (role : g.role = .nested body) (b : Bits) :
    cellAt heed offset (row, g) b =
      if heed && g.inert then b else Grid.act heed (row + offset) body b := by
  have found : g.body? = some body := by simp [Gate.body?, role]
  rw [cellAt, linkAt_of_local (by simp [role]), nestedAt, Gate.act_of_body? found]
  simp [pairAt, flipAt, Gate.isCell_of_nested role]

theorem cellAt_of_nonLocal {payload : Placeholder} (role : g.role = .nonLocal payload) (b : Bits) :
    cellAt heed offset (row, g) b =
      if heed && g.inert then b
      else b.when [payload.source + offset] (flip (payload.target + offset)) := by
  rw [cellAt, nestedAt_of_leaf (by simp [role])]
  simp only [linkAt, Gate.link?, Gate.placeholder?, role, pairAt, flipAt,
    Gate.isCell_of_nonLocal role]
  cases heed && g.inert <;> rfl

/-- Controls, swap halves and spacers do nothing by themselves. -/
theorem cellAt_of_marker (nested : ∀ body, g.role ≠ .nested body)
    (link : ∀ payload, g.role ≠ .nonLocal payload) (notFlip : g.isCell "X" = false)
    (notPair : g.isCell "CNOT" = false) (b : Bits) : cellAt heed offset (row, g) b = b := by
  rw [cellAt, nestedAt_of_leaf nested, linkAt_of_local link]
  simp [pairAt, flipAt, notFlip, notPair]

end

end Bits

/-! ## Passes over the cells of a column -/

namespace Column

variable {column : Column Gate}

theorem flipCells_eq (b : Bits) :
    flipCells offset column b = (placed column).foldl (fun b p => Bits.flipAt offset p b) b := by
  rw [flipCells, rowsOf, List.foldl_map, List.foldl_filter]
  rfl

theorem applyPairs_eq (b : Bits) :
    applyPairs offset column b = (placed column).foldl (fun b p => Bits.pairAt offset p b) b := by
  rw [applyPairs, rowsOf, List.foldl_map, List.foldl_filter]
  rfl

theorem applyLinks_eq (b : Bits) :
    applyLinks heed offset column b =
      (placed column).foldl (fun b p => Bits.linkAt heed offset p b) b := by
  rw [applyLinks, links, List.foldl_filterMap]
  congr 1
  funext b p
  unfold Bits.linkAt
  cases p.2.link? heed <;> rfl

end Column

/-! ## Circuits act on their own wires -/

/-- The wires of a circuit when its first one is `offset`. -/
def wiresFrom (offset wires : Nat) : Set Nat := { w | offset ≤ w ∧ w < offset + wires }

/-- The nested circuit of a gate fits into it and acts on its own wires. -/
def Gate.Confined (heed : Bool) (g : Gate) : Prop :=
  ∀ body, g.body? = some body → body.wires ≤ g.height ∧
    ∀ offset, Bits.Within (wiresFrom offset body.wires) (Grid.act heed offset body)

theorem Bits.within_nestedAt {p : Nat × Gate} (confined : p.2.Confined heed) :
    Within (p.2.wiresAt offset p.1) (nestedAt heed offset p) := by
  obtain ⟨row, g⟩ := p
  cases h : g.body? with
  | none =>
    have leaves : nestedAt heed offset (row, g) = fun b => b := by
      funext b
      exact Gate.act_of_no_body h b
    rw [leaves]
    exact within_id _
  | some body =>
    obtain ⟨low, within⟩ := confined body h
    have sub : wiresFrom (row + offset) body.wires ⊆ g.wiresAt offset row := by
      rintro w ⟨above, below⟩
      refine ⟨w - offset, ?_, by omega⟩
      simp only [Gate.rowsAt, Gate.role_of_body? h, List.mem_range'_1]
      change body.wires ≤ g.height at low
      omega
    have acts : nestedAt heed offset (row, g) = fun b =>
        if heed && g.inert then b else Grid.act heed (row + offset) body b := by
      funext b
      exact Gate.act_of_body? h b
    rw [acts]
    split
    · exact within_id _
    · exact (within (row + offset)).mono sub

namespace Column

variable {column : Column Gate} {wires : Nat}

theorem Fits.wiresAt_subset (fits : Fits wires column) {p : Nat × Gate} (h : p ∈ placed column) :
    p.2.wiresAt offset p.1 ⊆ wiresFrom offset wires := by
  rintro w ⟨r, covers, rfl⟩
  have := fits.in_range r (mem_occupied.mpr ⟨p.1, p.2, h, covers⟩)
  exact ⟨by omega, by omega⟩

theorem mem_rowsOf {id : String} {row : Nat} :
    row ∈ rowsOf id column ↔ ∃ g, (row, g) ∈ placed column ∧ g.isCell id := by
  simp [rowsOf]

theorem within_exchangePair {S : Set Nat} (h : ∀ row ∈ rowsOf "Swap" column, row + offset ∈ S) :
    Bits.Within S (exchangePair offset column) := by
  unfold exchangePair
  split
  · next u v rows =>
    apply Bits.within_exchange
    · exact h u (by rw [rows]; exact List.mem_cons_self)
    · exact h v (by rw [rows]; exact List.mem_cons_of_mem _ List.mem_cons_self)
  · exact Bits.within_id S

/-- In a fitting column the passes over the cells are one: the cells are disjoint, so that each may
do all it does at once. -/
theorem Fits.foldl_cellAt (fits : Fits wires column)
    (confined : ∀ p ∈ placed column, p.2.Confined heed) (b : Bits) :
    (placed column).foldl (fun b p => Bits.cellAt heed offset p b) b =
      (placed column).foldl (fun b p => p.2.act heed (p.1 + offset) b)
        (applyLinks heed offset column (applyPairs offset column (flipCells offset column b))) := by
  have comm {f g : Nat × Gate → Bits → Bits}
      (hf : ∀ p ∈ placed column, Bits.Within (p.2.wiresAt offset p.1) (f p))
      (hg : ∀ p ∈ placed column, Bits.Within (p.2.wiresAt offset p.1) (g p)) :
      (placed column).Pairwise fun p q => ∀ b, g p (f q b) = f q (g p b) :=
    (fits.disjoint offset).imp_of_mem fun hp hq apart b => (hg _ hp).comm (hf _ hq) apart b
  have flips (p : Nat × Gate) : Bits.Within (p.2.wiresAt offset p.1) (Bits.flipAt offset p) :=
    Bits.within_flipAt p
  have pairs (p : Nat × Gate) : Bits.Within (p.2.wiresAt offset p.1) fun b =>
      Bits.pairAt offset p (Bits.flipAt offset p b) := (Bits.within_pairAt p).comp (flips p)
  have links (p : Nat × Gate) : Bits.Within (p.2.wiresAt offset p.1) fun b =>
      Bits.linkAt heed offset p (Bits.pairAt offset p (Bits.flipAt offset p b)) :=
    (Bits.within_linkAt p).comp (pairs p)
  rw [flipCells_eq, applyPairs_eq, applyLinks_eq,
    Bits.foldl_foldl (comm (fun p _ => flips p) fun p _ => Bits.within_pairAt p),
    Bits.foldl_foldl (comm (fun p _ => pairs p) fun p _ => Bits.within_linkAt p)]
  exact (Bits.foldl_foldl
    (comm (fun p _ => links p) fun p h => Bits.within_nestedAt (confined p h)) b).symm

/-- A fitting column acts on the wires of its circuit. -/
theorem Fits.within_act (fits : Fits wires column)
    (confined : ∀ p ∈ placed column, p.2.Confined heed) :
    Bits.Within (wiresFrom offset wires) (Column.act heed offset column) := by
  have swaps : Bits.Within (wiresFrom offset wires) (exchangePair offset column) := by
    apply within_exchangePair
    intro row inside
    obtain ⟨g, placed, -⟩ := mem_rowsOf.mp inside
    exact fits.wiresAt_subset placed (Gate.mem_wiresAt (fits.own_row row g placed))
  have flips : Bits.Within (wiresFrom offset wires) (flipCells offset column) := by
    rw [funext flipCells_eq]
    exact Bits.Within.foldl fun p h => (Bits.within_flipAt p).mono (fits.wiresAt_subset h)
  have pairs : Bits.Within (wiresFrom offset wires) (applyPairs offset column) := by
    rw [funext applyPairs_eq]
    exact Bits.Within.foldl fun p h => (Bits.within_pairAt p).mono (fits.wiresAt_subset h)
  have links : Bits.Within (wiresFrom offset wires) (applyLinks heed offset column) := by
    rw [funext applyLinks_eq]
    exact Bits.Within.foldl fun p h => (Bits.within_linkAt p).mono (fits.wiresAt_subset h)
  have nested : Bits.Within (wiresFrom offset wires) fun b =>
      (placed column).foldl (fun b p => Bits.nestedAt heed offset p b) b :=
    Bits.Within.foldl fun p h =>
      (Bits.within_nestedAt (confined p h)).mono (fits.wiresAt_subset h)
  have reads (b b' : Bits) (agree : ∀ w ∈ wiresFrom offset wires, b w = b' w) :
      isMet offset column b = isMet offset column b' := by
    have same (id : String) (row : Nat) (h : row ∈ rowsOf id column) :
        b (row + offset) = b' (row + offset) := by
      obtain ⟨g, placed, -⟩ := mem_rowsOf.mp h
      apply agree
      exact fits.wiresAt_subset placed (Gate.mem_wiresAt (fits.own_row row g placed))
    unfold isMet
    congr 1
    · exact Bits.all_congr fun row h => same "•" row h
    · exact Bits.all_congr fun row h => congrArg (!·) (same "◦" row h)
  unfold act
  split
  · exact (flips.comp swaps).under reads
  · exact nested.comp (links.comp (pairs.comp (flips.comp swaps)))

end Column

theorem Grid.act_eq (c : Circuit) (b : Bits) :
    Grid.act heed offset c b =
      c.columns.foldl (fun b column => Column.act heed offset column b) b := by
  cases c
  exact Gate.actColumns_eq _ b

/-- **A well-formed circuit acts on its own wires.** -/
theorem Circuit.within_act {c : Circuit} (valid : checkCircuit c = .ok ()) (offset : Nat) :
    Bits.Within (wiresFrom offset c.wires) (Grid.act heed offset c) := by
  induction c using Circuit.nesting_induction generalizing offset with
  | step c ih =>
    obtain ⟨fits, sound⟩ := checkCircuit_eq_ok.mp valid
    rw [funext (Grid.act_eq c)]
    refine Bits.Within.foldl fun column inside => (fits column inside).within_act ?_
    intro p placed body nested
    have isAt : c.At p.2 := ⟨column, inside, Column.mem_of_placed placed⟩
    obtain ⟨-, inner⟩ := checkGate_eq_ok.mp (sound p.2 isAt)
    obtain ⟨low, valid⟩ := inner body nested
    exact ⟨low, ih p.2 isAt body nested valid⟩

end CircuitGrid
