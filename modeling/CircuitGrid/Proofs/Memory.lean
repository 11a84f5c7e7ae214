import CircuitGrid.Proofs.Routes

/-!
# Runs in a limited memory

In a limited memory a run goes as it does without limits until something cannot be held, and then it
panics. So what is said of results without limits is true of every result that a machine gives, and
the faults that it reports are those that are found without limits.

* `PanicsOr`: a run that panics or ends as another one does, and `PanicsOr.bind`;
* **`Circuit.ofTextIn_panicsOr`**, **`Circuit.distributeIn_panicsOr`**: reading a text and
  distributing a circuit;
* `Task.PanicsOr`: the same for the steps of a command;
* **`runCommandLine_panicsOr`**: every command line.
-/

namespace CircuitGrid

/-- The first run panics, or it ends as the second one does. -/
def PanicsOr {ε α : Type} (run whole : Except (Stop ε) α) : Prop :=
  run = .error .panic ∨ run = whole

namespace PanicsOr

variable {ε α β : Type} {run whole : Except (Stop ε) α}

theorem refl (run : Except (Stop ε) α) : PanicsOr run run := .inr rfl

theorem panic : PanicsOr (.error .panic) whole := .inl rfl

/-- What follows a run goes on as it does after the other one, if there is something to go on
with. -/
theorem bind {next next' : α → Except (Stop ε) β} (first : PanicsOr run whole)
    (rest : ∀ a, PanicsOr (next a) (next' a)) : PanicsOr (run >>= next) (whole >>= next') := by
  obtain rfl | rfl := first
  · exact panic
  · cases run with
    | error stop => exact refl _
    | ok a => exact rest a

end PanicsOr

variable {m : Memory}

/-! ## Descriptions -/

theorem resolveCells_panicsOr (scope : Scope) (row : Nat) (cells : List Cell) :
    PanicsOr (resolveCells m scope row cells) (resolveCells .unlimited scope row cells) := by
  induction cells generalizing row with
  | nil => exact .refl _
  | cons cell rest ih =>
    cases cell with
    | empty => exact (ih (row + 1)).bind fun _ => .refl _
    | gate id =>
      refine PanicsOr.bind (.refl _) fun gate => ?_
      rw [if_pos (Gate.rowsHeld_unlimited gate row)]
      split
      · exact (ih (row + 1)).bind fun _ => .refl _
      · exact .panic

theorem resolveColumns_panicsOr (scope : Scope) (columns : List (List Cell)) :
    PanicsOr (resolveColumns m scope columns) (resolveColumns .unlimited scope columns) := by
  induction columns with
  | nil => exact .refl _
  | cons cells rest ih =>
    exact (resolveCells_panicsOr scope 0 cells).bind fun _ => ih.bind fun _ => .refl _

theorem layOut_panicsOr (columns : List (Column Gate)) (wires : Option Nat) :
    PanicsOr (layOut m columns wires) (layOut .unlimited columns wires) := by
  simp only [layOut, Memory.holdsColumn_unlimited, Bool.or_true, if_true]
  split
  · exact .refl _
  · split
    · exact .refl _
    · exact .panic

theorem Sheet.decodeIn_panicsOr_of_definitions {d : Description}
    (each : ∀ e ∈ d.gates, ∀ scope, PanicsOr (e.decodeIn m scope) (e.decodeIn .unlimited scope))
    (outer : Scope) : PanicsOr (Sheet.decodeIn m outer d) (Sheet.decodeIn .unlimited outer d) := by
  obtain ⟨columns, definitions, wires⟩ := d
  have defined (scope : Scope) : PanicsOr (Definition.decodeAllIn m scope definitions)
      (Definition.decodeAllIn .unlimited scope definitions) := by
    induction definitions generalizing scope with
    | nil => exact .refl _
    | cons e rest ih =>
      refine (each e List.mem_cons_self scope).bind fun gate => ?_
      exact ih (fun e' inside => each e' (List.mem_cons_of_mem e inside)) _
  exact (defined outer).bind fun scope =>
    (resolveColumns_panicsOr scope columns).bind fun found => layOut_panicsOr found wires

theorem Definition.decodeIn_panicsOr (d : Definition) (scope : Scope) :
    PanicsOr (d.decodeIn m scope) (d.decodeIn .unlimited scope) := by
  induction d using Definition.nesting_induction generalizing scope with
  | step d ih =>
    obtain ⟨id, name, symbol, height, circuit, matrix, exports, nonLocal⟩ := d
    cases nonLocal with
    | some payload => exact .inr rfl
    | none =>
      cases circuit with
      | none => exact .inr rfl
      | some body =>
        rw [Definition.decodeIn, Definition.decodeIn]
        exact (Sheet.decodeIn_panicsOr_of_definitions (ih body rfl) scope).bind fun _ => .refl _

/-- **A description leads to the same circuit in every memory**, or reading it panics. -/
theorem Sheet.decodeIn_panicsOr (outer : Scope) (d : Description) :
    PanicsOr (Sheet.decodeIn m outer d) (Sheet.decode outer d) :=
  decodeIn_panicsOr_of_definitions (fun e _ => e.decodeIn_panicsOr) outer

/-- **A text leads to the same circuit in every memory**, or reading it panics. -/
theorem Circuit.ofTextIn_panicsOr (text : String) : PanicsOr (ofTextIn m text) (ofText text) := by
  rw [ofText, ofTextIn, ofTextIn]
  cases Description.read.run text with
  | error fault => exact .refl _
  | ok d =>
    obtain panics | same := Sheet.decodeIn_panicsOr (m := m) [] d
    · exact .inl (by simp only [panics, Stop.map])
    · exact .inr (by simp only [same, Sheet.decode])

/-! ## Distribution -/

theorem Partition.eq_of_ofCircuit? {c : Circuit} {requested : Nat} {p : Partition}
    (held : ofCircuit? m c requested = some p) : p = ofCircuit c requested := by
  rw [ofCircuit?, clamped?, balanced?, Option.ite_none_right_eq_some, Option.some.injEq] at held
  exact held.2.symm

theorem Pass.runIn_panicsOr (pass : Pass) (s : State) :
    PanicsOr (pass.runIn m s) (pass.run s) := by
  cases pass with
  | link | check => exact .refl _
  | partition =>
    rw [Pass.run, Pass.runIn, Pass.runIn, Partition.ofCircuit?_unlimited]
    cases held : Partition.ofCircuit? m s.circuit (s.properties.requested.getD 1) with
    | none => exact .panic
    | some found =>
      rw [Partition.eq_of_ofCircuit? held]
      exact .refl _

/-- Passes leave the same behind in every memory, unless one of them panics. -/
theorem Pass.runAllIn_panicsOr (passes : List Pass) (s : State) :
    (runAllIn m passes s).2 = .error .panic ∨ runAllIn m passes s = runAll passes s := by
  induction passes generalizing s with
  | nil => exact .inr rfl
  | cons pass rest ih =>
    rw [runAll, runAllIn, runAllIn]
    split
    · obtain panics | same := pass.runIn_panicsOr (m := m) s
      · exact .inl (by rw [panics])
      · rw [same, Pass.run]
        cases pass.runIn .unlimited s with
        | error stop => exact .inr rfl
        | ok after => exact ih after
    · exact ih s

/-- **A circuit is distributed in the same way in every memory**, or that panics. -/
theorem Circuit.distributeIn_panicsOr (c : Circuit) (requested : Nat) :
    PanicsOr (c.distributeIn m requested) (c.distribute requested) := by
  rw [distribute, distributeIn, distributeIn]
  obtain panics | same := Pass.runAllIn_panicsOr (m := m) (Pass.distributing true)
    ⟨c, { requested := some requested }⟩
  · revert panics
    cases Pass.runAllIn m (Pass.distributing true) ⟨c, { requested := some requested }⟩ with
    | mk s result =>
      rintro rfl
      exact .panic
  · rw [same]
    exact .refl _

/-! ## Command lines -/

namespace Task

variable {α β ε : Type} {run whole : Task (StateM Directory) α}

/-- The first task panics, or it prints, changes and ends as the second one does. -/
def PanicsOr (run whole : Task (StateM Directory) α) : Prop :=
  ∀ d printed, (run.after d printed).1.1 = .error .panic ∨
    run.after d printed = whole.after d printed

theorem PanicsOr.refl (run : Task (StateM Directory) α) : PanicsOr run run :=
  fun _ _ => .inr rfl

theorem PanicsOr.bind {next next' : α → Task (StateM Directory) β} (first : PanicsOr run whole)
    (rest : ∀ a, PanicsOr (next a) (next' a)) : PanicsOr (run >>= next) (whole >>= next') := by
  intro d printed
  rw [after_bind, after_bind]
  obtain panics | same := first d printed
  · revert panics
    obtain ⟨⟨result, printed'⟩, d'⟩ := run.after d printed
    rintro rfl
    exact .inl rfl
  · rw [same]
    obtain ⟨⟨_ | a, printed'⟩, d'⟩ := whole.after d printed
    · exact .inr rfl
    · exact rest a d' printed'

theorem ofRun_panicsOr (wrap : ε → CommandError) {x y : Except (Stop ε) α}
    (h : CircuitGrid.PanicsOr x y) :
    PanicsOr (ofRun wrap x : Task (StateM Directory) α) (ofRun wrap y) := by
  intro d printed
  obtain rfl | rfl := h
  · exact .inl rfl
  · exact .inr rfl

theorem load_panicsOr (path : String) :
    PanicsOr (load m Directory.host path) (load .unlimited Directory.host path) := by
  refine .bind (.refl _) fun source => ?_
  cases source with
  | missing | unreadable => exact .refl _
  | text source => exact ofRun_panicsOr _ (Circuit.ofTextIn_panicsOr source)

/-- A program that panics ends with the code 101. -/
theorem PanicsOr.outcome {run whole : Task (StateM Directory) Unit} (h : PanicsOr run whole)
    (d : Directory) :
    (run.outcome.run d).1.code = 101 ∨ run.outcome.run d = whole.outcome.run d := by
  have found := h d {}
  unfold after at found
  rw [Task.outcome, Task.outcome, StateT.run_bind, StateT.run_bind]
  generalize (run.run.run {}).run d = ended at found ⊢
  obtain panics | rfl := found
  · obtain ⟨⟨result, printed⟩, d'⟩ := ended
    obtain rfl : result = .error .panic := panics
    exact .inl rfl
  · exact .inr rfl

end Task

/-- Every command does the same in every memory, unless it panics. -/
theorem Command.task_panicsOr (command : Command) :
    Task.PanicsOr (command.task m Directory.host)
      (command.task .unlimited Directory.host) := by
  cases command with
  | dialects | about => exact .refl _
  | emit input name output =>
    refine .bind (.refl _) fun dialect => .bind (.refl _) fun _ => ?_
    exact (Task.load_panicsOr input).bind fun c => .refl _
  | distribute input blocks output name checking =>
    refine .bind (.refl _) fun dialect => .bind (.refl _) fun _ => ?_
    refine (Task.load_panicsOr input).bind fun c => .bind (.refl _) fun _ => ?_
    obtain panics | same := Pass.runAllIn_panicsOr (m := m) (Pass.distributing checking)
      ⟨c, { requested := some blocks }⟩
    · intro d printed
      dsimp only
      rw [panics]
      exact .inl rfl
    · dsimp only
      rw [same]
      exact .refl _
  | partition input blocks asJson =>
    refine (Task.load_panicsOr input).bind fun c => ?_
    rw [Partition.ofCircuit?_unlimited]
    cases held : Partition.ofCircuit? m c blocks with
    | none => exact fun d printed => .inl rfl
    | some p =>
      rw [Partition.eq_of_ofCircuit? held]
      exact .refl _

/-- What a command prints in some memory, succeeding, it prints without limits. -/
theorem Command.resultIn_of_run {command : Command} {d : Directory} {t : String}
    (printed : ((command.task m Directory.host).outcome.run d).1.result? = some t) :
    command.resultIn d = some t := by
  obtain panics | same := (command.task_panicsOr (m := m)).outcome d
  · rw [Outcome.result?, if_neg (by rw [panics]; decide)] at printed
    cases printed
  · rwa [same] at printed

/-- **Every command line does the same in every memory**: it prints the same, changes the same files
and ends with the same code, unless it panics. -/
theorem runCommandLine_panicsOr (settings : Settings) (args : List String) (d : Directory) :
    ((runCommandLine m Directory.host settings args).run d).1.code = 101 ∨
      (runCommandLine m Directory.host settings args).run d =
        (runCommandLine .unlimited Directory.host settings args).run d := by
  rw [runCommandLine, runCommandLine]
  split
  · exact .inr rfl
  · exact .inr rfl
  · exact .inr rfl
  · next command _ => exact command.task_panicsOr.outcome d

end CircuitGrid
