import CircuitGrid.Circuit.InPlace
import CircuitGrid.Proofs.Editing
import Mathlib.Data.List.Induction

/-!
# Circuits that are edited in place

Placing a gate in place makes all its checks before it changes anything, so a gate that is refused
leaves nothing behind. Changes that are tried one after the other, refused or not, lead to a circuit
that can be built, unless one of them panics. The number of wires is a word, though: where the
number of appended wires makes it wrap around, columns are cut, and a gate may cover rows below the
last wire that is left.

* `InPlace.on_place`, `InPlace.on_pushColumn`, `InPlace.on_appendWires`: what edits in place lead to;
* `Change`, `Circuit.after`: changes of a circuit, and the circuit after a sequence of them;
* `Circuit.changed`, `Circuit.left?_steps`: the circuit after one change, without its steps;
* `Circuit.Unwrapped`: sequences of changes in which no number of wires wraps around;
* `Circuit.Built.changed`, `Circuit.apart_changed`: what one change preserves;
* `Circuit.after_induction`: from one change to a sequence of them;
* `Circuit.Built.after`, `Circuit.apart_of_after`: what a sequence of them preserves;
* **`Circuit.apart_after`**: what holds after any changes, and what holds of every refused gate.
-/

namespace CircuitGrid

/-! ## Steps in place -/

namespace InPlace

variable {α : Type} {c : Circuit}

@[simp] theorem on_pure (a : α) : (pure a : InPlace α).on c = (.ok a, c) := rfl

@[simp] theorem on_throw (stop : Stop CircuitError) :
    (throw stop : InPlace α).on c = (.error stop, c) := rfl

@[simp] theorem on_get : (get : InPlace Circuit).on c = (.ok c, c) := rfl

@[simp] theorem on_modify (f : Circuit → Circuit) :
    (modify f : InPlace PUnit).on c = (.ok ⟨⟩, f c) := rfl

/-- Steps that follow others run on what those have made of the circuit, unless those failed. -/
@[simp] theorem on_bind {β : Type} (steps : InPlace α) (next : α → InPlace β) :
    (steps >>= next).on c = match steps.on c with
      | (.ok a, c') => (next a).on c'
      | (.error stop, c') => (.error stop, c') := by
  simp only [on, ExceptT.run_bind, StateT.run_bind]
  cases h : (ExceptT.run steps).run c with
  | mk result c' => cases result <;> rfl

@[simp] theorem on_map {β : Type} (f : α → β) (steps : InPlace α) :
    (f <$> steps).on c = ((steps.on c).1.map f, (steps.on c).2) := by
  rw [map_eq_pure_bind, on_bind]
  obtain ⟨result, c'⟩ := steps.on c
  cases result <;> rfl

@[simp] theorem on_discard (steps : InPlace α) :
    (discard steps).on c = ((steps.on c).1.map fun _ => ⟨⟩, (steps.on c).2) :=
  on_map (Function.const α PUnit.unit) steps

theorem withBlank_eq : withBlank c = c.growTo (c.columns.length + 1) := by
  simp [withBlank, Circuit.growTo]

/-- **Pushing a column in place is pushing it.** -/
theorem on_pushColumn (c : Circuit) : pushColumn.on c = match c.pushColumn with
    | none => (.error .panic, c)
    | some out => (.ok c.columns.length, out) := by
  rw [Circuit.pushColumn, pushColumn, on_bind, on_get]
  by_cases held : Memory.machine.holdsColumn c.wires
  · simp [held, withBlank_eq, Circuit.growTo, Except.map]
  · simp [held]

/-- Columns that are pushed one by one are all there or, where they are not held, none of them. -/
theorem on_pushColumns (missing : Nat) (c : Circuit) : (pushColumns missing).on c =
    if missing = 0 ∨ Memory.machine.holdsColumn c.wires then
      (.ok (), c.growTo (c.columns.length + missing))
    else (.error .panic, c) := by
  induction missing generalizing c with
  | zero => simp [pushColumns, Circuit.growTo]
  | succ missing ih =>
    rw [pushColumns, on_bind, on_discard, on_pushColumn, Circuit.pushColumn]
    by_cases held : Memory.machine.holdsColumn c.wires
    · simp [held, ih, Circuit.growTo, List.replicate_succ, Except.map]
    · simp [held, Except.map]

theorem on_putCell {column row : Nat} (cell : Option Gate) (below : row < c.wires) :
    (putCell column row cell).on c =
      if c.canReach column row then (.ok (), (c.growTo (column + 1)).setCell column row cell)
      else (.error .panic, c) := by
  rw [putCell, on_bind, on_get]
  dsimp only
  rw [on_bind, on_pushColumns, Circuit.canReach]
  cases there : c.columns[column]? with
  | some slots =>
    have inside := (List.getElem?_eq_some_iff.mp there).1
    have none : column + 1 - c.columns.length = 0 := by omega
    have here : c.column column = slots := by rw [Grid.column, there, Option.getD_some]
    by_cases slot : row < slots.length <;> simp [none, Circuit.growTo, here, slot]
  | none =>
    rw [List.getElem?_eq_none_iff] at there
    have grown : c.columns.length + (column + 1 - c.columns.length) = column + 1 := by omega
    have some : ¬ column + 1 - c.columns.length = 0 := by omega
    have length : ((c.growTo (column + 1)).column column).length = c.wires := by
      have new : column - c.columns.length < column + 1 - c.columns.length := by omega
      simp [Grid.column, Circuit.growTo, List.getElem?_append_right there, new]
    by_cases held : Memory.machine.holdsColumn c.wires
    · simp [some, held, grown, length, below]
    · simp [some, held]

/-- **Placing a gate in place is placing it, and nothing changes unless it is placed.** -/
theorem on_place (column row : Nat) (gate : Gate) (c : Circuit) :
    (place column row gate).on c = match c.place column row gate with
      | .error stop => (.error stop, c)
      | .ok out => (.ok (), out) := by
  rw [place, on_bind, on_get, Circuit.place]
  dsimp only
  cases gate.listRows c.wires row with
  | none => rfl
  | some rows =>
    cases outside : rows.find? (c.wires ≤ ·) with
    | some wire => simp [outside]
    | none =>
      by_cases own : row ∈ rows
      · have below : row < c.wires := by simpa using List.find?_eq_none.mp outside row own
        have put : (putCell column row (some gate)).on c = _ := on_putCell (some gate) below
        cases there : c.columns[column]? with
        | none =>
          have blank : rows.find? (Column.covers (c.column column)) = none := by
            simp [Grid.column, there, Column.covers, Column.placed, Column.placedFrom]
          by_cases reach : c.canReach column row <;> simp [outside, own, there, blank, put, reach]
        | some slots =>
          have here : c.column column = slots := by rw [Grid.column, there, Option.getD_some]
          cases taken : rows.find? (Column.covers slots) with
          | some taken' => simp [outside, own, there, here, taken]
          | none =>
            by_cases reach : c.canReach column row <;>
              simp [outside, own, there, here, taken, put, reach]
      · cases rows <;> simp [outside, own]

/-- **Appending wires in place is appending them**, but where that panics, they have been counted. -/
theorem on_appendWires (count : Nat) (c : Circuit) :
    (appendWires count).on c = match c.appendWires count with
      | none => (.error .panic, { c with wires := (c.wires + count) % wordLimit })
      | some out => (.ok (c.wires, out.wires), out) := by
  rw [appendWires, Circuit.appendWires, on_bind, on_get]
  by_cases held : c.columns = [] ∨ Memory.machine.holdsColumn ((c.wires + count) % wordLimit)
  · simp [held, Circuit.resized, Except.map]
  · simp [held]

/-- What steps make of a circuit, whether they fail or not, unless they panic. -/
def left? (steps : InPlace α) (c : Circuit) : Option Circuit :=
  match steps.on c with
  | (.error .panic, _) => none
  | (_, out) => some out

end InPlace

/-! ## Sequences of changes -/

/-- A change of a circuit. -/
inductive Change where
  | place (column row : Nat) (gate : Gate)
  | clear (column row : Nat)
  | appendWires (count : Nat)
  | pushColumn

/-- The steps of a change. -/
def Change.steps : Change → InPlace Unit
  | place column row gate => InPlace.place column row gate
  | clear column row => discard (InPlace.clear column row)
  | appendWires count => discard (InPlace.appendWires count)
  | pushColumn => discard InPlace.pushColumn

namespace Circuit

variable {c out start : Circuit} {change : Change} {changes : List Change}

/-- The circuit after changes that are tried one after the other, refused or not. A panic ends
them. -/
def after (start : Circuit) (changes : List Change) : Option Circuit :=
  changes.foldlM (fun c change => change.steps.left? c) start

/-- The circuit after one change. A gate that is refused leaves it as it was. -/
def changed (c : Circuit) : Change → Option Circuit
  | .place column row gate =>
    match c.place column row gate with
    | .ok out => some out
    | .error (.fault _) => some c
    | .error .panic => none
  | .clear column row => some (c.clear column row).2
  | .appendWires count => c.appendWires count
  | .pushColumn => c.pushColumn

theorem left?_steps (c : Circuit) (change : Change) : change.steps.left? c = c.changed change := by
  cases change with
  | place column row gate =>
    rw [InPlace.left?, Change.steps, InPlace.on_place, changed]
    match c.place column row gate with
    | .ok _ | .error (.fault _) | .error .panic => rfl
  | clear column row => rfl
  | appendWires count =>
    rw [InPlace.left?, Change.steps, InPlace.on_discard, InPlace.on_appendWires, changed]
    cases c.appendWires count <;> rfl
  | pushColumn =>
    rw [InPlace.left?, Change.steps, InPlace.on_discard, InPlace.on_pushColumn, changed]
    cases c.pushColumn <;> rfl

theorem after_eq (start : Circuit) (changes : List Change) :
    start.after changes = changes.foldlM changed start := by
  simp only [after, left?_steps]

theorem after_concat (start : Circuit) (changes : List Change) (change : Change) :
    start.after (changes ++ [change]) = (start.after changes).bind (changed · change) := by
  simp [after_eq, List.foldlM_append]

/-- What holds at the start and after one more change, once it holds before, holds after all
changes. The last change is taken away, since a change acts on what those before it have made. -/
theorem after_induction {motive : List Change → Circuit → Prop}
    (reached : start.after changes = some c) (nil : motive [] start)
    (concat : ∀ before change b out, start.after before = some b → motive before b →
      b.changed change = some out → motive (before ++ [change]) out) : motive changes c := by
  induction changes using List.reverseRecOn generalizing c with
  | nil =>
    cases reached
    exact nil
  | append_singleton before change ih =>
    rw [after_concat, Option.bind_eq_some_iff] at reached
    obtain ⟨b, there, done⟩ := reached
    exact concat before change b c there (ih there) done

theorem Built.changed (built : c.Built) (done : c.changed change = some out) : out.Built := by
  cases change with
  | place column row gate =>
    rw [Circuit.changed] at done
    split at done
    · next placed =>
      cases done
      exact built.place placed
    · cases done
      exact built
    · cases done
  | clear column row =>
    cases done
    exact built.clear column row
  | appendWires count => exact built.appendWires done
  | pushColumn => exact built.pushColumn done

theorem Built.after (built : start.Built) (reached : start.after changes = some c) : c.Built :=
  after_induction (motive := fun _ c => c.Built) reached built
    fun _ _ _ _ _ built done => built.changed done

/-- No number of wires wraps around when the changes are made. -/
def Unwrapped (start : Circuit) (changes : List Change) : Prop :=
  ∀ before count rest c, changes = before ++ .appendWires count :: rest →
    start.after before = some c → c.wires + count < wordLimit

/-- A change in which the number of wires does not wrap around keeps gates apart. -/
theorem apart_changed (apart : ∀ slots ∈ c.columns, Column.Apart c.wires slots)
    (unwrapped : ∀ count, change = .appendWires count → c.wires + count < wordLimit)
    (done : c.changed change = some out) :
    ∀ slots ∈ out.columns, Column.Apart out.wires slots := by
  cases change with
  | place column row gate =>
    rw [changed] at done
    split at done
    · next placed =>
      cases done
      exact apart_place apart placed
    · cases done
      exact apart
    · cases done
  | clear column row =>
    cases done
    exact apart_clear apart
  | appendWires count =>
    obtain ⟨-, rfl⟩ := appendWires_eq_some.mp done
    rw [Nat.mod_eq_of_lt (unwrapped count rfl)]
    exact apart_resized apart (Nat.le_add_right _ _)
  | pushColumn =>
    obtain ⟨-, rfl⟩ := pushColumn_eq_some.mp done
    exact apart_growTo apart

/-- Changes in which no number of wires wraps around keep gates apart. -/
theorem apart_of_after (apart : ∀ slots ∈ start.columns, Column.Apart start.wires slots)
    (reached : start.after changes = some c) (unwrapped : start.Unwrapped changes) :
    ∀ slots ∈ c.columns, Column.Apart c.wires slots := by
  revert unwrapped
  refine after_induction (motive := fun changes c => start.Unwrapped changes →
    ∀ slots ∈ c.columns, Column.Apart c.wires slots) reached (fun _ => apart) ?_
  intro before change b out there ih done unwrapped
  refine apart_changed (ih fun earlier count rest d same => ?_) (fun count last => ?_) done
  · exact unwrapped earlier count (rest ++ [change]) d (by simp [same])
  · exact unwrapped before count [] b (by rw [last]) there

/-- **After any changes of a circuit that is empty or made of columns, every column has a slot for
every wire, its gates lie in their own rows, and no row belongs to two of them. They lie inside the
circuit, too, if no number of wires has wrapped around. A gate that is refused leaves the circuit as
it was.** -/
theorem apart_after
    (made : (∃ wires, start = Grid.empty wires) ∨
      ∃ wires columns, Circuit.ofColumns wires columns = .ok start)
    (reached : start.after changes = some c) :
    (∀ slots ∈ c.columns, Column.Split c.wires slots) ∧
      (start.Unwrapped changes → ∀ slots ∈ c.columns, Column.Apart c.wires slots) ∧
      ∀ column row gate stop out,
        (InPlace.place column row gate).on c = (.error stop, out) → out = c := by
  have built : start.Built := by
    obtain ⟨wires, rfl⟩ | ⟨wires, columns, checked⟩ := made
    · exact .empty wires
    · exact .ofColumns checked
  have first : ∀ slots ∈ start.columns, Column.Apart start.wires slots := by
    obtain ⟨wires, rfl⟩ | ⟨wires, columns, checked⟩ := made
    · exact fun slots h => absurd h List.not_mem_nil
    · exact (validate_eq_ok.mp (ofColumns_eq_ok.mp checked).1).1
  refine ⟨(built.after reached).split, apart_of_after first reached, ?_⟩
  intro column row gate stop out failed
  rw [InPlace.on_place] at failed
  split at failed <;> cases failed
  rfl

/-- A gate of two rows in the third column of a circuit that gets a third wire keeps another gate
off its second row. -/
theorem apart_after_overlap :
    let changes := [.place 2 0 ((Gate.basic "A" "").withHeight 2), .appendWires 1]
    ∃ c, after (Grid.empty 2) changes = some c ∧ Unwrapped (Grid.empty 2) changes ∧
      (∀ slots ∈ c.columns, Column.Apart c.wires slots) ∧
      (InPlace.place 2 1 (Gate.basic "B" "")).on c = (.error (.fault (.overlap "B" 2 1)), c) := by
  intro changes
  let a : Gate := (Gate.basic "A" "").withHeight 2
  let c : Circuit := ⟨3, [[none, none, none], [none, none, none], [some a, none, none]]⟩
  have reached : after (Grid.empty 2) changes = some c := by
    rw [after_eq]
    rfl
  have unwrapped : Unwrapped (Grid.empty 2) [.place 2 0 a, .appendWires 1] := by
    rintro (_ | ⟨first, _ | ⟨second, before⟩⟩) count rest b same there
    · cases same
    · cases same
      rw [after_eq] at there
      cases there
      decide
    · cases before <;> cases same
  have refused : ((InPlace.place 2 1 (Gate.basic "B" "")).on c).1 =
      .error (.fault (.overlap "B" 2 1)) := by
    rw [InPlace.on_place]
    rfl
  obtain ⟨-, apart, kept⟩ := apart_after (.inl ⟨2, rfl⟩) reached
  exact ⟨c, reached, unwrapped, apart unwrapped,
    Prod.ext refused (kept 2 1 _ _ _ (Prod.ext refused rfl))⟩

/-- **Where the number of wires wraps around, there are fewer than before**: a gate of three rows is
left in a circuit of two wires. -/
theorem not_apart_after :
    ¬ ∀ (wires : Nat) (changes : List Change) (c : Circuit),
      (∀ count, Change.appendWires count ∈ changes → count < wordLimit) →
        after (Grid.empty wires) changes = some c →
          ∀ slots ∈ c.columns, Column.Apart c.wires slots := by
  intro all
  let g : Gate := (Gate.basic "g" "").withHeight 3
  have apart := all 3 [.place 0 0 g, .appendWires (wordLimit - 1)] ⟨2, [[some g, none]]⟩
    (fun count inside => ?_) ?_ _ List.mem_cons_self
  · exact absurd (apart.in_range 0 g (by simp [Column.placed, Column.placedFrom]) 2 (by decide))
      (by decide)
  · simp only [List.mem_cons, reduceCtorEq, Change.appendWires.injEq, List.not_mem_nil, or_false,
      false_or] at inside
    subst inside
    decide
  · have placed : changed (Grid.empty 3) (.place 0 0 g) = some ⟨3, [[some g, none, none]]⟩ := rfl
    have appended : changed ⟨3, [[some g, none, none]]⟩ (.appendWires (wordLimit - 1)) =
        some ⟨2, [[some g, none]]⟩ := by
      have wraps : (3 + (wordLimit - 1)) % wordLimit = 2 := by decide
      rw [changed, appendWires_eq_some, wraps]
      exact ⟨.inr (by decide), rfl⟩
    simp [after_eq, placed, appended]

end Circuit

end CircuitGrid
