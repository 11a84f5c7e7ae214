import CircuitGrid.Description.Text
import CircuitGrid.Proofs.Equality
import CircuitGrid.Proofs.Json.Containers
import CircuitGrid.Proofs.Nesting

/-!
# Written descriptions are read back

A description is read back from its texts, with or without blanks, unless its containers are nested
too deeply or a number does not fit into its word.

* `Sheet.fits`: the numbers of a description fit into their words;
* `Sheet.numbers`: the doubles of a description;
* **`Sheet.reads`**, `Description.run_read`: a written description is read back.
-/

namespace CircuitGrid

open Reader (bind_of_ok)

/-! ## Cells -/

theorem Reader.kindWith_text (inner : Option (Reader Kind)) (id : String) (rest : List Char) :
    kindWith inner ((Json.quoted id).toList ++ rest) = .ok (.text id, rest) := by
  have read := text_quoted id rest
  rw [toList_quoted, List.cons_append] at read ⊢
  rw [text, bind_of_ok (peek_cons rfl)] at read
  have tail : textTail (id.toList.flatMap Json.escaped ++ ['"'] ++ rest) = .ok (id, rest) := read
  unfold kindWith
  rw [bind_of_ok (peek_cons rfl)]
  show (advance >>= fun _ => textTail >>= _ : Reader Kind) _ = _
  rw [bind_of_ok (advance_cons _), bind_of_ok tail]
  rfl

theorem Reader.kindWith_one (inner : Option (Reader Kind)) {rest : List Char} (ends : Ends rest) :
    kindWith inner ('1' :: rest) = .ok (.nat 1, rest) := by
  have one : number ('1' :: rest) = .ok (.nat 1, rest) := by
    rw [number_cons rfl]
    exact (unsigned_toDigits 1 ends).1 (by decide)
  unfold kindWith
  rw [bind_of_ok (peek_cons rfl)]
  show (number >>= _ : Reader Kind) _ = _
  rw [bind_of_ok one]
  rfl

theorem Cell.reads (cell : Cell) (depth : Nat) :
    Reads (Cell.read depth) depth cell.toJson cell True := by
  obtain ⟨inner, opened⟩ : ∃ inner, Reader.anyValue depth = Reader.kindWith inner := by
    cases depth <;> exact ⟨_, rfl⟩
  have skips : Reader.Skips (Reader.anyValue depth) := by
    rw [opened]
    exact Reader.Skips.peek.bind _
  refine Reads.of_flat (by cases cell <;> rfl) (skips.bind _) fun rest ends => .of_ok ?_
  cases cell with
  | empty =>
    have found : Reader.anyValue depth ('1' :: rest) = .ok (.nat 1, rest) := by
      rw [opened]
      exact Reader.kindWith_one inner ends
    exact bind_of_ok found
  | gate id =>
    have found : Reader.anyValue depth ((Json.quoted id).toList ++ rest) = .ok (.text id, rest) := by
      rw [opened]
      exact Reader.kindWith_text inner id rest
    exact bind_of_ok found

/-! ## Placeholders and exports -/

/-- The wires of a placeholder fit into their words. -/
def Placeholder.fits (p : Placeholder) : Bool :=
  p.source < wireLimit && p.target < wireLimit && p.link.1 < wireLimit && p.link.2 < wireLimit

theorem readWire_reads {depth : Nat} (n : Nat) : Reads readWire depth (.nat n) n (n < wireLimit) :=
  .natBelow (show 2 ^ 32 ≤ 2 ^ 64 by decide) n

theorem Placeholder.gives (p : Placeholder) (depth : Nat) :
    (Placeholder.shape depth).Gives depth (none, none, none, none)
      [("kind", .text p.kind.name), ("source", .nat p.source), ("target", .nat p.target),
        ("link", .list [.nat p.link.1, .nat p.link.2])]
      (some p.kind, some p.source, some p.target, some p.link) p.fits := by
  have kind : Reads (Entangler.read depth) depth (.text p.kind.name) p.kind True :=
    .choice (by cases p.kind <;> rfl)
  have link : Reads (Reader.pair depth fun _ => readWire) depth
      (.list [.nat p.link.1, .nat p.link.2]) p.link (p.link.1 < wireLimit ∧ p.link.2 < wireLimit) :=
    .pair (fun _ _ => readWire_reads _) (fun _ _ => readWire_reads _)
  refine .congr (.cons (.left (.one kind) _)
    (.cons (.right (.left (.one (readWire_reads _)) _) _)
    (.cons (.right (.right (.left (.one (readWire_reads _)) _) _) _)
    (.cons (.right (.right (.right (.one link) _) _) _) (.nil _))))) ?_
  simp [Placeholder.fits, and_assoc]

/-- **A written placeholder is read back** if its wires fit into their words. -/
theorem Placeholder.reads (p : Placeholder) (depth : Nat) :
    Reads (Placeholder.read depth) depth p.toJson p p.fits :=
  .record (fun inner _ => p.gives inner) rfl

theorem Export.gives (e : Export) (numbers : ∀ x ∈ e.angles, ReadsBack x) (depth : Nat) :
    (Export.shape depth).Gives depth (none, none, none, none)
      ([("uncontrolled", .text e.uncontrolled.name)] ++
        Json.optional "controlled" (fun op => .text op.name) e.controlled ++
        Json.nonempty "params" .float e.params ++
        Json.nonempty "controlled_params" .float e.controlledParams)
      (some e.uncontrolled, e.controlled.map some, if e.params = [] then none else some e.params,
        if e.controlledParams = [] then none else some e.controlledParams) True := by
  have op : ∀ op : Op, Reads (Op.read depth) depth (.text op.name) op True :=
    fun op => .choice (by cases op <;> rfl)
  have list : ∀ xs : List Float, (∀ x ∈ xs, ReadsBack x) →
      Reads (Reader.list depth fun _ => Reader.float) depth (.list (xs.map .float)) xs
        (∀ x ∈ xs, True) :=
    fun xs numbers => .list fun _ _ x inside => .float (numbers x inside)
  have params := list e.params fun x inside => numbers x (List.mem_append_left _ inside)
  have controlled := list e.controlledParams fun x inside =>
    numbers x (List.mem_append_right _ inside)
  refine .congr (.append (.append (.append (.one (.left (.one (op e.uncontrolled)) _))
    (.optional (fun x => (_, x, _, _))
      fun op' _ => .right (.left (.one (.optional (op op') nofun nofun)) _) _))
    (.nonempty (fun x => (_, _, x, _)) (.right (.right (.left (.one params) _) _) _)))
    (.nonempty (fun x => (_, _, _, x)) (.right (.right (.right (.one controlled) _) _) _)))
    ?_
  simp

/-- **A written export is read back.** -/
theorem Export.reads (e : Export) (numbers : ∀ x ∈ e.angles, ReadsBack x) (depth : Nat) :
    Reads (Export.read depth) depth e.toJson e True := by
  refine .record (fun inner _ => e.gives numbers inner) ?_
  obtain ⟨uncontrolled, controlled, params, controlledParams⟩ := e
  cases controlled <;> cases params <;> cases controlledParams <;> rfl

/-! ## Descriptions -/

mutual

/-- The numbers of a definition fit into their words. -/
def Definition.fits : Definition → Bool
  | ⟨_, _, _, height, circuit, _, _, nonLocal⟩ =>
    height.all (· < Nat.pow 2 64) && nonLocal.all Placeholder.fits &&
    match circuit with
    | some body => Sheet.fits body
    | none => true
termination_by structural d => d

/-- The numbers of a description fit into their words. -/
def Sheet.fits : Sheet Definition → Bool
  | ⟨_, gates, wires⟩ => Definition.allFit gates && wires.all (· < Nat.pow 2 64)
termination_by structural d => d

/-- The numbers of definitions fit into their words. -/
def Definition.allFit : List Definition → Bool
  | [] => true
  | d :: rest => Definition.fits d && Definition.allFit rest
termination_by structural definitions => definitions

end

mutual

/-- The doubles of a definition. -/
def Definition.numbers : Definition → List Float
  | ⟨_, _, _, _, circuit, matrix, exports, _⟩ =>
    (matrix.getD []).flatMap (fun (re, im) => [re, im]) ++ (exports.map Export.angles).getD [] ++
    match circuit with
    | some body => Sheet.numbers body
    | none => []
termination_by structural d => d

/-- The doubles of a description. -/
def Sheet.numbers : Sheet Definition → List Float
  | ⟨_, gates, _⟩ => Definition.allNumbers gates
termination_by structural d => d

/-- The doubles of definitions. -/
def Definition.allNumbers : List Definition → List Float
  | [] => []
  | d :: rest => Definition.numbers d ++ Definition.allNumbers rest
termination_by structural definitions => definitions

end

theorem Definition.allFit_eq_true {ds : List Definition} :
    Definition.allFit ds ↔ ∀ d ∈ ds, d.fits := by
  induction ds with
  | nil => simp [Definition.allFit]
  | cons d ds ih => simp [Definition.allFit, ih]

theorem Sheet.mem_numbers {s : Sheet Definition} {x : Float} :
    x ∈ Sheet.numbers s ↔ ∃ d ∈ s.gates, x ∈ d.numbers := by
  obtain ⟨columns, gates, wires⟩ := s
  rw [Sheet.numbers]
  induction gates with
  | nil => simp [Definition.allNumbers]
  | cons d ds ih => simp [Definition.allNumbers, ih]

theorem Definition.fits_eq (d : Definition) :
    d.fits = (d.height.all (· < Nat.pow 2 64) && d.nonLocal.all Placeholder.fits &&
      d.circuit.all Sheet.fits) := by
  obtain ⟨id, name, symbol, height, circuit, matrix, exports, nonLocal⟩ := d
  cases circuit <;> rfl

theorem Definition.numbers_eq (d : Definition) :
    d.numbers = (d.matrix.getD []).flatMap (fun (re, im) => [re, im]) ++
      (d.exports.map Export.angles).getD [] ++ (d.circuit.map Sheet.numbers).getD [] := by
  obtain ⟨id, name, symbol, height, circuit, matrix, exports, nonLocal⟩ := d
  cases circuit <;> rfl

theorem Definition.listToJson_eq_map (ds : List Definition) :
    Definition.listToJson ds = ds.map Definition.toJson := by
  induction ds with
  | nil => rfl
  | cons d ds ih => rw [Definition.listToJson, ih, List.map_cons]

theorem Sheet.toJson_eq (columns : List (List Cell)) (gates : List Definition)
    (wires : Option Nat) :
    Sheet.toJson ⟨columns, gates, wires⟩ =
      .object ([("cols", .list (columns.map fun cells => .list (cells.map Cell.toJson)))] ++
        Json.nonempty "gates" Definition.toJson gates ++ Json.optional "wires" .nat wires) := by
  cases gates with
  | nil => rfl
  | cons d ds =>
    show Json.object (_ ++ [("gates", .list (d.toJson :: Definition.listToJson ds))] ++ _) = _
    rw [Definition.listToJson_eq_map]
    rfl

theorem Definition.toJson_eq (d : Definition) : d.toJson =
    .object ([("id", .text d.id)] ++ Json.optional "name" .text d.name ++
      Json.optional "symbol" .text d.symbol ++ Json.optional "height" .nat d.height ++
      Json.optional "circuit" Sheet.toJson d.circuit ++
      Json.optional "matrix"
        (fun entries => .list (entries.map fun (re, im) => .list [.float re, .float im])) d.matrix ++
      Json.optional "export" Export.toJson d.exports ++
      Json.optional "nonlocal" Placeholder.toJson d.nonLocal) := by
  obtain ⟨id, name, symbol, height, circuit, matrix, exports, nonLocal⟩ := d
  cases circuit <;> rfl

theorem Sheet.gives (columns : List (List Cell)) (gates : List Definition) (wires : Option Nat)
    {definition : Nat → Reader Definition} {depth : Nat}
    (each : ∀ inner, depth = inner + 1 →
      ∀ d ∈ gates, Reads (definition inner) inner d.toJson d d.fits) :
    (Sheet.shape definition depth).Gives depth (none, none, none)
      ([("cols", .list (columns.map fun cells => .list (cells.map Cell.toJson)))] ++
        Json.nonempty "gates" Definition.toJson gates ++ Json.optional "wires" .nat wires)
      (some columns, if gates = [] then none else some gates, wires.map some)
      (Sheet.fits ⟨columns, gates, wires⟩) := by
  have cols : Reads (Reader.list depth fun depth => Reader.list depth Cell.read) depth
      (.list (columns.map fun cells => .list (cells.map Cell.toJson))) columns
      (∀ cells ∈ columns, ∀ cell ∈ cells, True) :=
    .list fun _ _ _ _ => .list fun _ _ cell _ => cell.reads _
  have definitions : Reads (Reader.list depth definition) depth
      (.list (gates.map Definition.toJson)) gates (∀ d ∈ gates, d.fits) := .list each
  have wire : ∀ n, Reads (Reader.optional Reader.nat) depth (.nat n) (some n) (n < Nat.pow 2 64) :=
    fun n => .optional (.natBelow (Nat.le_refl _) n) nofun nofun
  refine .congr (.append (.append (.one (.left (.one cols) _))
    (.nonempty (fun x => (_, x, _)) (.right (.left (.one definitions) _) _)))
    (.optional (fun x => (_, _, x)) fun n _ => .right (.right (.one (wire n)) _) _)) ?_
  rw [Sheet.fits, Bool.and_eq_true, Definition.allFit_eq_true]
  cases gates <;> cases wires <;> simp

theorem Definition.gives (d : Definition) {circuit : Nat → Reader Description} {depth : Nat}
    (inside : ∀ body, d.circuit = some body →
      Reads (circuit depth) depth (Sheet.toJson body) body (Sheet.fits body))
    (numbers : ∀ x ∈ d.numbers, ReadsBack x) :
    (Definition.shape circuit depth).Gives depth (none, none, none, none, none, none, none, none)
      ([("id", .text d.id)] ++ Json.optional "name" .text d.name ++
        Json.optional "symbol" .text d.symbol ++ Json.optional "height" .nat d.height ++
        Json.optional "circuit" Sheet.toJson d.circuit ++
        Json.optional "matrix"
          (fun entries => .list (entries.map fun (re, im) => .list [.float re, .float im])) d.matrix ++
        Json.optional "export" Export.toJson d.exports ++
        Json.optional "nonlocal" Placeholder.toJson d.nonLocal)
      (some d.id, d.name.map some, d.symbol.map some, d.height.map some, d.circuit.map some,
        d.matrix.map some, d.exports.map some, d.nonLocal.map some) d.fits := by
  rw [Definition.numbers_eq] at numbers
  have text : ∀ s, Reads (Reader.optional Reader.text) depth (.text s) (some s) True :=
    fun s => .optional (.text s) nofun nofun
  have height : ∀ n, Reads (Reader.optional Reader.nat) depth (.nat n) (some n) (n < Nat.pow 2 64) :=
    fun n => .optional (.natBelow (Nat.le_refl _) n) nofun nofun
  have body : ∀ body, d.circuit = some body → Reads (Reader.optional (circuit depth)) depth
      (Sheet.toJson body) (some body) (Sheet.fits body) :=
    fun body found => .optional (inside body found) (by cases body; rw [Sheet.toJson_eq]; nofun)
      (by cases body; rw [Sheet.toJson_eq]; nofun)
  have entries : ∀ m, d.matrix = some m → Reads
      (Reader.optional (Reader.list depth fun depth => Reader.pair depth fun _ => Reader.float)) depth
      (.list (m.map fun (re, im) => .list [.float re, .float im])) (some m)
      (∀ entry ∈ m, True ∧ True) := by
    intro m found
    have entry : ∀ entry ∈ m, ReadsBack entry.1 ∧ ReadsBack entry.2 := by
      intro entry inside
      constructor <;> refine numbers _ ?_ <;>
        simp only [found, Option.getD_some, List.mem_append, List.mem_flatMap] <;>
        exact .inl (.inl ⟨entry, inside, by simp⟩)
    exact .optional (.list fun _ _ z inside => .pair (fun _ _ => .float (entry z inside).1)
      (fun _ _ => .float (entry z inside).2)) nofun nofun
  have exports : ∀ e, d.exports = some e → Reads (Reader.optional (Export.read depth)) depth
      e.toJson (some e) True := by
    intro e found
    refine .optional (e.reads (fun x inside => numbers x ?_) depth) nofun nofun
    simp [found, inside]
  have nonLocal : ∀ p : Placeholder, Reads (Reader.optional (Placeholder.read depth)) depth
      p.toJson (some p) p.fits :=
    fun p => .optional (p.reads depth) nofun nofun
  refine .congr (.append (.append (.append (.append (.append (.append (.append
    (.one (.left (.one (.text d.id)) _))
    (.optional (fun x => (_, x, _)) fun b _ => .right (.left (.one (text b)) _) _))
    (.optional (fun x => (_, _, x, _)) fun b _ => .right (.right (.left (.one (text b)) _) _) _))
    (.optional (fun x => (_, _, _, x, _)) fun b _ =>
      .right (.right (.right (.left (.one (height b)) _) _) _) _))
    (.optional (fun x => (_, _, _, _, x, _)) fun b found =>
      .right (.right (.right (.right (.left (.one (body b found)) _) _) _) _) _))
    (.optional (fun x => (_, _, _, _, _, x, _)) fun b found =>
      .right (.right (.right (.right (.right (.left (.one (entries b found)) _) _) _) _) _) _))
    (.optional (fun x => (_, _, _, _, _, _, x, _)) fun b found =>
      .right (.right (.right (.right (.right (.right (.left (.one (exports b found)) _) _) _) _) _)
        _) _))
    (.optional (fun x => (_, _, _, _, _, _, _, x)) fun b _ =>
      .right (.right (.right (.right (.right (.right (.right (.one (nonLocal b)) _) _) _) _) _) _)
        _)) ?_
  rw [Definition.fits_eq]
  simp only [Bool.and_eq_true, Option.all_eq_true, decide_eq_true_eq, Option.mem_def]
  simp only [implies_true, true_and, and_true]
  tauto

/-- A written definition is read back. -/
theorem Definition.reads_of_circuit (d : Definition) {levels depth : Nat} (within : depth ≤ levels)
    (inside : ∀ body, d.circuit = some body → ∀ levels depth, depth ≤ levels →
      Reads (Sheet.read (Definition.read levels) depth) depth (Sheet.toJson body) body
        (Sheet.fits body))
    (numbers : ∀ x ∈ d.numbers, ReadsBack x) :
    Reads (Definition.read levels depth) depth d.toJson d d.fits := by
  rw [Definition.toJson_eq]
  cases levels with
  | zero =>
    obtain rfl : depth = 0 := by omega
    intro text writes blank isBlank rest ends
    exact ⟨fun fit => absurd fit.1 (by simp [Json.depth]), fun _ => ⟨.malformed, rfl⟩⟩
  | succ levels =>
    refine .record (fun inner opened => d.gives (fun body found => ?_) numbers) ?_
    · exact inside body found levels inner (by omega)
    · have join : ∀ {α : Type} (o : Option α), (o.map some).join = o := by
        intro α o
        cases o <;> rfl
      cases d
      show some (Definition.mk _ _ _ _ _ _ _ _) = _
      simp only [join]

/-- A written sheet is read back if its definitions are. -/
theorem Sheet.reads_of_definitions (s : Sheet Definition) {levels depth : Nat}
    (within : depth ≤ levels)
    (inside : ∀ d ∈ s.gates, ∀ levels depth, depth ≤ levels →
      Reads (Definition.read levels depth) depth d.toJson d d.fits) :
    Reads (Sheet.read (Definition.read levels) depth) depth s.toJson s s.fits := by
  obtain ⟨columns, gates, wires⟩ := s
  rw [Sheet.toJson_eq]
  refine .record (fun inner opened => Sheet.gives columns gates wires fun inner' opened' d found =>
    inside d found levels inner' (by omega)) ?_
  cases gates <;> cases wires <;> rfl

/-- **A written definition is read back** if its numbers fit into their words. -/
theorem Definition.reads (d : Definition) (numbers : ∀ x ∈ d.numbers, ReadsBack x)
    (levels depth : Nat) (within : depth ≤ levels) :
    Reads (Definition.read levels depth) depth d.toJson d d.fits := by
  induction d using Definition.nesting_induction generalizing levels depth with
  | step d ih =>
    refine d.reads_of_circuit within (fun body found levels depth within => ?_) numbers
    refine body.reads_of_definitions within fun d' inside => ih body found d' inside fun x here => ?_
    refine numbers x ?_
    have inBody : x ∈ Sheet.numbers body := Sheet.mem_numbers.mpr ⟨d', inside, here⟩
    simp [Definition.numbers_eq, found, inBody]

/-- **A written description is read back** if its numbers fit into their words. -/
theorem Sheet.reads (s : Sheet Definition) (numbers : ∀ x ∈ Sheet.numbers s, ReadsBack x)
    (levels depth : Nat) (within : depth ≤ levels) :
    Reads (Sheet.read (Definition.read levels) depth) depth s.toJson s s.fits :=
  s.reads_of_definitions within fun d inside => d.reads fun x inNumbers =>
    numbers x (Sheet.mem_numbers.mpr ⟨d, inside, inNumbers⟩)

/-- **A written description is read back from its texts**, whatever blanks stand in them, if its
containers are not nested too deeply and its numbers fit into their words; otherwise it is refused. -/
theorem Description.run_read (d : Description) (numbers : ∀ x ∈ d.numbers, ReadsBack x)
    {source : String} (writes : d.toJson.Writes source.toList) :
    (d.toJson.depth ≤ maxDepth ∧ d.fits → Description.read.run source = .ok d) ∧
      (¬ (d.toJson.depth ≤ maxDepth ∧ d.fits) →
        ∃ fault, Description.read.run source = .error fault) := by
  have reads := d.reads numbers maxDepth maxDepth (Nat.le_refl _) _ writes [] .nil [] Ends.nil
  rw [List.append_nil, List.nil_append] at reads
  unfold Reader.run
  constructor
  · intro fit
    have found : Description.read source.toList = .ok (d, []) := reads.1 fit
    rw [found]
    rfl
  · intro not
    obtain ⟨fault, refused⟩ := reads.2 not
    have found : Description.read source.toList = .error fault := refused
    exact ⟨fault, by rw [found]⟩

end CircuitGrid
