import CircuitGrid.CommandLine.Directory
import CircuitGrid.CommandLine.Run
import CircuitGrid.Proofs.Description.Exact

/-!
# Distributing and emitting, in one run or in two

A distributed circuit can be emitted by the run that distributes it, or its description can be
printed and emitted by another run. Both give the same program when no gate is defined in the
description and what was printed is read back.

* `Command.resultIn`: what a command prints when it succeeds;
* `Task.Silent`, `Task.Gives`: what the steps of a command add to that;
* `Command.resultIn_emit`, `Command.resultIn_distribute`, `Command.resultIn_distribute_emit`: what
  the commands print;
* `Circuit.distributed?_eq_some`: the circuit that is printed or emitted;
* `Circuit.Plain.circuit?_printed`: what is printed of it leads back to it;
* **`Command.resultIn_emit_distributed`**: the two ways agree.
-/

namespace CircuitGrid

/-- What a run prints if it succeeds. -/
def Outcome.result? (o : Outcome) : Option String :=
  if o.code = 0 then some o.printed.results else none

/-- What a command prints in a directory if it succeeds, without limits. -/
def Command.resultIn (d : Directory) (command : Command) : Option String :=
  ((command.task .unlimited Directory.host).outcome.run d).1.result?

/-- The circuit that a path of a directory leads to. -/
def Directory.circuit? (d : Directory) (path : String) : Option Circuit :=
  match d.read path with
  | .text source => (Circuit.ofText source).toOption
  | _ => none

/-- The circuit that the passes lead to, unless one of them fails. -/
def Circuit.distributed? (c : Circuit) (blocks : Nat) (checking : Bool) : Option Circuit :=
  match Pass.runAll (Pass.distributing checking) ⟨c, { requested := some blocks }⟩ with
  | (s, .ok ()) => some s.circuit
  | (_, .error _) => none

theorem Directory.circuit?_eq_some {d : Directory} {path : String} {c : Circuit} :
    d.circuit? path = some c ↔
      ∃ source, d.read path = .text source ∧ Circuit.ofText source = .ok c := by
  rw [circuit?]
  cases d.read path with
  | text source => cases read : Circuit.ofText source <;> simp [read, Except.toOption]
  | _ => simp

/-! ## Tasks in a directory -/

namespace Task

variable {α β ε : Type} {d : Directory} {t : Option String}

/-- Where a task leads in a directory from what has been printed. -/
def after (task : Task (StateM Directory) α) (d : Directory) (printed : Printed) :
    (Except (Stop CommandError) α × Printed) × Directory :=
  (task.run.run printed).run d

/-- The task remarks on something and does nothing else. -/
def Silent (task : Task (StateM Directory) Unit) : Prop :=
  ∀ d printed, ∃ remarks, task.after d printed = ((.ok (), { printed with remarks := remarks }), d)

/-- After any remarks the task prints a text, or it fails. -/
def Gives (task : Task (StateM Directory) Unit) (d : Directory) (t : Option String) : Prop :=
  ∀ remarks, match task.after d ⟨"", remarks⟩ with
    | ((.ok (), printed), _) => t = some printed.results
    | ((.error _, _), _) => t = none

theorem after_bind (task : Task (StateM Directory) α) (next : α → Task (StateM Directory) β)
    (printed : Printed) : (task >>= next).after d printed = match task.after d printed with
      | ((.ok a, printed), d') => (next a).after d' printed
      | ((.error e, printed), d') => ((.error e, printed), d') := by
  show StateT.bind (task printed) (fun p => ExceptT.bindCont next p.1 p.2) d = _
  show (match task printed d with
    | (p, d') => ExceptT.bindCont next p.1 p.2 d') = match task printed d with
      | ((.ok a, printed), d') => next a printed d'
      | ((.error e, printed), d') => ((.error e, printed), d')
  obtain ⟨⟨result, printed⟩, d'⟩ := task printed d
  cases result <;> rfl

theorem silent_remark (line : String) : Silent (Task.remark line) := fun _ _ => ⟨_, rfl⟩

theorem silent_pure : Silent (pure ()) := fun _ _ => ⟨_, rfl⟩

theorem Silent.bind {task next : Task (StateM Directory) Unit} (first : Silent task)
    (second : Silent next) : Silent (task >>= fun _ => next) := by
  intro d printed
  obtain ⟨remarks, done⟩ := first d printed
  rw [after_bind, done]
  exact second d _

theorem silent_forM {items : List α} {task : α → Task (StateM Directory) Unit}
    (each : ∀ a, Silent (task a)) : Silent (items.forM task) := by
  induction items with
  | nil => exact silent_pure
  | cons a rest ih => exact (each a).bind ih

theorem Silent.gives {task next : Task (StateM Directory) Unit} (first : Silent task)
    (second : Gives next d t) : Gives (task >>= fun _ => next) d t := by
  intro remarks
  obtain ⟨remarks', done⟩ := first d ⟨"", remarks⟩
  rw [after_bind, done]
  exact second remarks'

theorem gives_ofExcept {wrap : ε → CommandError} {x : Except ε α}
    {next : α → Task (StateM Directory) Unit} {t : α → Option String}
    (each : ∀ a, Gives (next a) d (t a)) : Gives (Task.ofExcept wrap x >>= next) d
      (x.toOption.bind t) := by
  cases x with
  | ok a => exact each a
  | error e => exact fun _ => rfl

theorem gives_ofRun {wrap : ε → CommandError} {x : Except (Stop ε) α}
    {next : α → Task (StateM Directory) Unit} {t : α → Option String}
    (each : ∀ a, Gives (next a) d (t a)) : Gives (Task.ofRun wrap x >>= next) d
      (x.toOption.bind t) := by
  cases x with
  | ok a => exact each a
  | error stop => exact fun _ => rfl

theorem gives_dialect {name : String} {next : Dialect → Task (StateM Directory) Unit}
    {t : Dialect → Option String} (each : ∀ a, Gives (next a) d (t a)) :
    Gives (Task.dialect name >>= next) d ((Dialect.ofName? name).bind t) := by
  unfold Task.dialect
  cases Dialect.ofName? name with
  | some a => exact each a
  | none => exact fun _ => rfl

theorem gives_read {path : String} {next : Source → Task (StateM Directory) Unit}
    (rest : Gives (next (d.read path)) d t) :
    Gives ((liftM (Directory.host.read path) : Task (StateM Directory) Source) >>= next) d t := rest

theorem gives_load {path : String} {next : Circuit → Task (StateM Directory) Unit}
    {t : Circuit → Option String} (each : ∀ c, Gives (next c) d (t c)) :
    Gives (Task.load .unlimited Directory.host path >>= next) d ((d.circuit? path).bind t) := by
  rw [Task.load, bind_assoc]
  refine gives_read ?_
  rw [Directory.circuit?]
  cases d.read path with
  | text source => exact gives_ofRun each
  | _ => exact fun _ => rfl

theorem gives_deliver {content : String} {next : Task (StateM Directory) Unit}
    (rest : Silent next) :
    Gives (Task.deliver Directory.host none content >>= fun _ => next) d (some content) := by
  intro remarks
  have printed : (Task.deliver Directory.host none content).after d ⟨"", remarks⟩ =
      ((.ok (), ⟨"" ++ content, remarks⟩), d) := rfl
  obtain ⟨remarks', done⟩ := rest d ⟨"" ++ content, remarks⟩
  rw [after_bind, printed]
  dsimp only
  rw [done]
  simp

theorem silent_finish (what : String) : Silent (finish what none) :=
  (silent_remark _).bind silent_pure

/-- The last steps of a command that gives a text. -/
theorem gives_written {wrap : ε → CommandError} {x : Except ε String} (what : String) :
    Gives (Task.ofExcept wrap x >>= fun text =>
      Task.deliver Directory.host none text >>= fun _ => finish what none) d x.toOption := by
  rw [← Option.bind_fun_some x.toOption]
  exact gives_ofExcept fun text => gives_deliver (silent_finish what)

theorem gives_emitted {wrap : ε → CommandError} {x : Except (Stop ε) String} (what : String) :
    Gives (Task.ofRun wrap x >>= fun text =>
      Task.deliver Directory.host none text >>= fun _ => finish what none) d x.toOption := by
  rw [← Option.bind_fun_some x.toOption]
  exact gives_ofRun fun text => gives_deliver (silent_finish what)

theorem silent_remarkOn (wires : Nat) (s : State) : Silent (remarkOn wires s) := by
  unfold remarkOn
  have links (report : Report) := @silent_forM Link report.links _ fun link => silent_remark
    s!"    link {link.pair.name}: ancillas q{link.first} and q{link.second}"
  cases s.properties.partition.bind Partition.sizes? with
  | none =>
    cases s.properties.report with
    | none => exact silent_pure
    | some report => exact (silent_remark _).bind (links report)
  | some sizes =>
    cases s.properties.report with
    | none => exact (silent_remark _).bind silent_pure
    | some report => exact (silent_remark _).bind ((silent_remark _).bind (links report))

theorem Gives.result {command : Command} (gives : Gives (command.task .unlimited Directory.host) d t) :
    command.resultIn d = t := by
  have found := gives ""
  unfold after at found
  rw [Command.resultIn, Task.outcome, StateT.run_bind]
  generalize ((command.task .unlimited Directory.host).run.run ⟨"", ""⟩).run d = ended at found
  obtain ⟨⟨result, printed⟩, d'⟩ := ended
  match result with
  | .ok _ | .error (.fault _) | .error .panic => exact found.symm

end Task

/-! ## What commands print -/

namespace Command

variable (d : Directory) (input name : String) (blocks : Nat) (checking : Bool)

theorem resultIn_emit :
    resultIn d (.emit input name none) = (do
      let dialect ← Dialect.ofName? name
      let c ← d.circuit? input
      let program ← c.lower.toOption
      (dialect.emit program).toOption) := by
  refine Task.Gives.result (Task.gives_dialect fun dialect => ?_)
  refine (Task.silent_remark _).gives (Task.gives_load fun c => ?_)
  refine (Task.silent_remark _).gives (Task.gives_ofExcept fun program => ?_)
  exact (Task.silent_remark _).gives (Task.gives_emitted _)

theorem resultIn_distribute :
    resultIn d (.distribute input blocks none none checking) = (do
      let c ← d.circuit? input
      let distributed ← c.distributed? blocks checking
      distributed.toIndentedText.toOption) := by
  refine Task.Gives.result ?_
  refine (Task.silent_remark _).gives (Task.gives_load fun c => ?_)
  refine (Task.silent_remark _).gives ?_
  unfold Circuit.distributed? Pass.runAll
  obtain ⟨s, result⟩ :=
    Pass.runAllIn .unlimited (Pass.distributing checking) ⟨c, { requested := some blocks }⟩
  cases result with
  | error e => exact fun _ => rfl
  | ok _ => exact (Task.silent_remarkOn _ s).gives (Task.gives_written _)

theorem resultIn_distribute_emit :
    resultIn d (.distribute input blocks none (some name) checking) = (do
      let dialect ← Dialect.ofName? name
      let c ← d.circuit? input
      let distributed ← c.distributed? blocks checking
      let program ← distributed.lower.toOption
      (dialect.emit program).toOption) := by
  refine Task.Gives.result ?_
  unfold Command.task distributeTask Option.mapM
  dsimp only
  rw [bind_map_left]
  refine Task.gives_dialect fun dialect => ?_
  refine (Task.silent_remark _).gives (Task.gives_load fun c => ?_)
  refine (Task.silent_remark _).gives ?_
  unfold Circuit.distributed? Pass.runAll
  obtain ⟨s, result⟩ :=
    Pass.runAllIn .unlimited (Pass.distributing checking) ⟨c, { requested := some blocks }⟩
  cases result with
  | error e => exact fun _ => rfl
  | ok _ =>
    refine (Task.silent_remarkOn _ s).gives (Task.gives_ofExcept fun program => ?_)
    exact Task.gives_emitted _

end Command

/-! ## What is printed -/

namespace Circuit

variable {c c' : Circuit} {blocks : Nat} {checking : Bool}

/-- The passes link the blocks of a well-formed circuit. -/
theorem distributed?_eq_some (valid : c.validate = .ok ())
    (distributed : c.distributed? blocks checking = some c') :
    c' = c.linked (Partition.ofCircuit c blocks) := by
  have apart := (validate_eq_ok.mp valid).1
  simp only [distributed?, Pass.distributing] at distributed
  cases checking with
  | true =>
    simp only [if_true, Pass.runAll, Pass.runAllIn, Pass.isDue, Option.isNone_none, Pass.runIn,
      Partition.ofCircuit?_unlimited, Option.getD_some, (Linkable.of_apart apart).link_eq]
      at distributed
    cases checked : (c.linked (Partition.ofCircuit c blocks)).checkLinks
        (some (Partition.ofCircuit c blocks))
        (some (c.linkReport (Partition.ofCircuit c blocks))) with
    | error fault => simp [checked] at distributed
    | ok counts => simpa [checked] using distributed.symm
  | false =>
    simpa [Pass.runAll, Pass.runAllIn, Pass.isDue, Pass.runIn, (Linkable.of_apart apart).link_eq]
      using distributed.symm

end Circuit

/-! ## The two ways -/

section agree

variable {d : Directory} {input : String} {blocks : Nat} {checking : Bool}

/-- A circuit whose description defines no gates is well formed and has built-in gates only. -/
theorem Directory.plain_of_circuit?
    (plain : ∀ source s, d.read input = .text source → Description.read.run source = .ok s →
      s.gates = [])
    {c : Circuit} (loaded : d.circuit? input = some c) : c.Plain ∧ c.validate = .ok () := by
  obtain ⟨source, found, parsed⟩ := Directory.circuit?_eq_some.mp loaded
  obtain ⟨s, read, decoded⟩ := Circuit.ofText_eq_ok.mp parsed
  exact Circuit.plain_of_decode (plain source s found read) decoded

/-- What is printed of a distributed circuit leads back to it, wherever it is kept. -/
theorem Circuit.Plain.circuit?_printed {c c' : Circuit} (plain : c.Plain)
    (valid : c.validate = .ok ()) (distributed : c.distributed? blocks checking = some c')
    (readBack : c'.ReadBack) :
    ∃ text, c'.toIndentedText = .ok text ∧ ∀ (d : Directory) (path : String),
      d.read path = .text text → d.circuit? path = some c' := by
  cases Circuit.distributed?_eq_some valid distributed
  obtain ⟨s, encoded, restored⟩ := plain.decode_linked valid
  have back := Circuit.ofText_eq_ok.mpr ⟨s, readBack s encoded, restored⟩
  exact ⟨s.toJson.pretty, by rw [Circuit.toIndentedText, encoded]; rfl,
    fun d path holds => Directory.circuit?_eq_some.mpr ⟨_, holds, back⟩⟩

/-- **Distributing and emitting agree, in one run or in two.** For a description that defines no
gates the run that only distributes succeeds whenever the one that emits does, and emitting what it
printed succeeds in the same cases and with the same program. -/
theorem Command.resultIn_emit_distributed
    (plain : ∀ source s, d.read input = .text source → Description.read.run source = .ok s →
      s.gates = [])
    (readBack : ∀ c c', d.circuit? input = some c → c.distributed? blocks checking = some c' →
      c'.ReadBack)
    (name : String) :
    let direct := Command.resultIn d (.distribute input blocks none (some name) checking)
    let printed := Command.resultIn d (.distribute input blocks none none checking)
    (direct.isSome → printed.isSome) ∧
      ∀ text, printed = some text → ∀ (d' : Directory) (path : String), d'.read path = .text text →
        Command.resultIn d' (.emit path name none) = direct := by
  rw [resultIn_distribute, resultIn_distribute_emit]
  dsimp only
  cases loaded : d.circuit? input with
  | none => simp
  | some c =>
    cases distributed : c.distributed? blocks checking with
    | none => simp [distributed]
    | some c' =>
      obtain ⟨isPlain, valid⟩ := Directory.plain_of_circuit? plain loaded
      obtain ⟨written, done, again⟩ :=
        isPlain.circuit?_printed valid distributed (readBack c c' loaded distributed)
      constructor
      · intro _
        simp [distributed, done, Except.toOption]
      · intro text isPrinted d' path holds
        have same : written = text := by simpa [distributed, done, Except.toOption] using isPrinted
        rw [resultIn_emit, again d' path (same ▸ holds)]
        simp [distributed]

end agree

/-- A controlled gate between two blocks, distributed and emitted. -/
theorem Command.resultIn_emit_distributed_controlled :
    let d : Directory := [("c", "\x7b\"cols\":[[\"•\",1,\"X\"],[\"Z\",\"Y\"]]\x7d")]
    ∃ program text,
      Command.resultIn d (.distribute "c" 2 none (some "qasm2") true) = some program ∧
      Command.resultIn d (.distribute "c" 2 none none true) = some text ∧
      Command.resultIn [("c", text)] (.emit "c" "qasm2" none) = some program := by
  intro d
  let source := "\x7b\"cols\":[[\"•\",1,\"X\"],[\"Z\",\"Y\"]]\x7d"
  have read (text : String) : Directory.read [("c", text)] "c" = .text text := by cbv
  have undefined : (Description.read.run source).toOption.all (·.gates.isEmpty) = true := by
    decide +kernel
  have checked : (Circuit.ofText source).toOption.any (fun c => c.readsBack &&
      decide (c.wires < 2 ^ 64 ∧
        ∀ link ∈ c.linksFor (Partition.ofCircuit c 2), link.second < wireLimit) &&
      (c.distributed? 2 true).any fun c' => c'.lower.toOption.any fun program =>
        (Dialect.qasm2.emit program).toOption.isSome) = true := by
    rw [Circuit.ofText_spelled source rfl]
    decide +kernel
  obtain ⟨c, parsed, checked⟩ := (Option.any_eq_true _ _).mp checked
  simp only [Bool.and_eq_true, decide_eq_true_eq] at checked
  obtain ⟨⟨numbers, wires, narrow⟩, checked⟩ := checked
  obtain ⟨c', distributed, emitted⟩ := (Option.any_eq_true _ _).mp checked
  have loaded : d.circuit? "c" = some c := by
    rw [Directory.circuit?, show d.read "c" = .text source from read source]
    exact parsed
  have plain : ∀ text s, d.read "c" = .text text → Description.read.run text = .ok s →
      s.gates = [] := by
    intro text s holds parsed
    cases (read source).symm.trans holds
    rw [parsed] at undefined
    exact List.isEmpty_iff.mp undefined
  have printed : ∀ c₁ c₂, d.circuit? "c" = some c₁ → c₁.distributed? 2 true = some c₂ →
      c₂.ReadBack := by
    intro c₁ c₂ first second
    cases loaded.symm.trans first
    obtain ⟨isPlain, valid⟩ := Directory.plain_of_circuit? plain loaded
    cases Circuit.distributed?_eq_some valid second
    exact isPlain.readBack_linked valid (Circuit.readsBack_iff.mp numbers) wires narrow
  obtain ⟨succeeds, agree⟩ := resultIn_emit_distributed plain printed "qasm2"
  have direct : (Command.resultIn d (.distribute "c" 2 none (some "qasm2") true)).isSome := by
    obtain ⟨program, lowered, emitted⟩ := (Option.any_eq_true _ _).mp emitted
    rw [resultIn_distribute_emit, show Dialect.ofName? "qasm2" = some .qasm2 from
      Dialect.ofName?_name .qasm2, loaded]
    simpa [distributed, lowered] using emitted
  obtain ⟨program, isProgram⟩ := Option.isSome_iff_exists.mp direct
  obtain ⟨text, isText⟩ := Option.isSome_iff_exists.mp (succeeds direct)
  exact ⟨program, text, isProgram, isText, (agree text isText _ _ (read text)).trans isProgram⟩

end CircuitGrid
