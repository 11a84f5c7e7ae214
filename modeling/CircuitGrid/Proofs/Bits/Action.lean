import CircuitGrid.Proofs.Slices
import Mathlib

/-!
# What operations do to bits

Five operations take every assignment of bits to the wires to another one. A program made of them
is run on bits by running its instructions in order. What acts on disjoint sets of wires may be
done in either order, and this is all that is used of the order in which cells are lowered.

* `Bits`, `Bits.flip`, `Bits.exchange`, `Bits.when`: bits and what is done to them;
* `Operation.act?`, `Program.run?`: operations and programs on bits;
* `Bits.Within`, `Bits.Within.comm`: what acts within a set of wires;
* **`Bits.sandwich`**: flipping the wires of anti-controls before and after an action under controls
  is the action under the conditions that they stand for.
-/

namespace CircuitGrid

/-- A bit for every wire. -/
abbrev Bits : Type := Nat → Bool

namespace Bits

/-- Flips a wire. -/
def flip (target : Nat) (b : Bits) : Bits := fun w => if w = target then !b w else b w

/-- Exchanges two wires. -/
def exchange (u v : Nat) (b : Bits) : Bits := fun w =>
  if w = u then b v else if w = v then b u else b w

/-- Acts when all controls are on. -/
def when (controls : List Nat) (f : Bits → Bits) (b : Bits) : Bits :=
  if controls.all b then f b else b

end Bits

/-- What an operation does to bits; the operations that do more than move and flip bits have no
such action, nor has one on another number of wires than its own. -/
def Operation.act? (o : Operation) (b : Bits) : Option Bits :=
  match o.op, o.wires with
  | .x, [target] => some (b.flip target)
  | .cx, [control, target] => some (b.when [control] (.flip target))
  | .ccx, [first, second, target] => some (b.when [first, second] (.flip target))
  | .swap, [u, v] => some (b.exchange u v)
  | .cswap, [control, u, v] => some (b.when [control] (.exchange u v))
  | _, _ => none

/-- Runs operations in order. -/
def Operation.run? (os : List Operation) (b : Bits) : Option Bits := os.foldlM (fun b o => o.act? b) b

/-- Runs the instructions of a program in order. -/
def Program.run? (p : Program) (b : Bits) : Option Bits :=
  Operation.run? (p.instructions.map (·.toOperation)) b

/-! ## Runs -/

namespace Operation

@[simp] theorem run?_nil (b : Bits) : run? [] b = some b := rfl

@[simp] theorem run?_singleton (o : Operation) (b : Bits) : run? [o] b = o.act? b := by
  simp [run?]

theorem run?_append (os os' : List Operation) (b : Bits) :
    run? (os ++ os') b = (run? os b).bind (run? os') :=
  List.foldlM_append

/-- Operations that act in turn run as a fold over what they stand for. -/
theorem run?_flatten {α : Type} {f : α → Bits → Bits} {xs : List α} {parts : List (List Operation)}
    (each : List.Forall₂ (fun x part => ∀ b, run? part b = some (f x b)) xs parts) (b : Bits) :
    run? parts.flatten b = some (xs.foldl (fun b x => f x b) b) := by
  induction each generalizing b with
  | nil => rfl
  | cons first _ ih =>
    rw [List.flatten_cons, run?_append, first, Option.bind_some, ih, List.foldl_cons]

theorem run?_map {α : Type} {f : α → Bits → Bits} {o : α → Operation} {xs : List α}
    (each : ∀ x ∈ xs, ∀ b, (o x).act? b = some (f x b)) (b : Bits) :
    run? (xs.map o) b = some (xs.foldl (fun b x => f x b) b) := by
  induction xs generalizing b with
  | nil => rfl
  | cons x rest ih =>
    rw [List.map_cons, ← List.singleton_append, run?_append, run?_singleton,
      each x List.mem_cons_self, Option.bind_some, List.foldl_cons]
    exact ih (fun y inside => each y (List.mem_cons_of_mem x inside)) _

end Operation

/-- A program runs its slices one after the other. -/
theorem Program.run?_ofSlices (wires : Nat) (slices : List Slice) (b : Bits) :
    (ofSlices wires slices).run? b = Operation.run? slices.flatten b := by
  rw [run?, ofSlices, map_toOperation_numberSlices]

/-! ## Acting within a set of wires -/

namespace Bits

/-- The action changes wires of the set only, and the bits outside it make no difference there. -/
structure Within (wires : Set Nat) (f : Bits → Bits) : Prop where
  outside : ∀ b, ∀ w ∉ wires, f b w = b w
  congr : ∀ b b', (∀ w ∈ wires, b w = b' w) → ∀ w ∈ wires, f b w = f b' w

variable {S T : Set Nat} {f g : Bits → Bits}

theorem within_id (S : Set Nat) : Within S id := ⟨fun _ _ _ => rfl, fun _ _ agree => agree⟩

theorem within_univ (f : Bits → Bits) : Within Set.univ f := by
  refine ⟨fun _ w outside => absurd (Set.mem_univ w) outside, fun b b' agree w _ => ?_⟩
  rw [funext fun w => agree w (Set.mem_univ w)]

theorem Within.comp (hg : Within S g) (hf : Within S f) : Within S fun b => g (f b) := by
  refine ⟨fun b w outside => ?_, fun b b' agree => ?_⟩
  · rw [hg.outside _ w outside, hf.outside _ w outside]
  · exact hg.congr _ _ (hf.congr _ _ agree)

theorem Within.mono (hf : Within S f) (sub : S ⊆ T) : Within T f := by
  refine ⟨fun b w outside => hf.outside b w fun inside => outside (sub inside), ?_⟩
  intro b b' agree w inside
  by_cases h : w ∈ S
  · exact hf.congr b b' (fun w inS => agree w (sub inS)) w h
  · rw [hf.outside b w h, hf.outside b' w h, agree w inside]

theorem Within.foldl {α : Type} {f : α → Bits → Bits} {xs : List α}
    (each : ∀ x ∈ xs, Within S (f x)) : Within S fun b => xs.foldl (fun b x => f x b) b := by
  induction xs with
  | nil => exact within_id S
  | cons x rest ih =>
    have first := each x List.mem_cons_self
    exact (ih fun y inside => each y (List.mem_cons_of_mem x inside)).comp first

/-- **Actions within disjoint sets of wires may be done in either order.** -/
theorem Within.comm (hf : Within S f) (hg : Within T g) (apart : Disjoint S T) (b : Bits) :
    f (g b) = g (f b) := by
  funext w
  by_cases inS : w ∈ S
  · have notT : w ∉ T := Set.disjoint_left.mp apart inS
    rw [hg.outside _ w notT]
    exact hf.congr _ _ (fun v inS => hg.outside b v (Set.disjoint_left.mp apart inS)) w inS
  · rw [hf.outside _ w inS]
    by_cases inT : w ∈ T
    · exact (hg.congr _ _ (fun v inT => hf.outside b v (Set.disjoint_right.mp apart inT)) w inT).symm
    · rw [hg.outside _ w inT, hg.outside _ w inT, hf.outside _ w inS]

theorem within_flip {target : Nat} (h : target ∈ S) : Within S (flip target) := by
  refine ⟨fun b w outside => ?_, fun b b' agree w inside => ?_⟩
  · have ne : w ≠ target := by
      rintro rfl
      exact outside h
    rw [flip, if_neg ne]
  · rw [flip, flip, agree w inside]

theorem within_exchange {u v : Nat} (hu : u ∈ S) (hv : v ∈ S) : Within S (exchange u v) := by
  refine ⟨fun b w outside => ?_, fun b b' agree w inside => ?_⟩
  · have ne : w ≠ u ∧ w ≠ v := by
      constructor <;> rintro rfl
      · exact outside hu
      · exact outside hv
    rw [exchange, if_neg ne.1, if_neg ne.2]
  · rw [exchange, exchange, agree u hu, agree v hv, agree w inside]

theorem Within.under {test : Bits → Bool} (hf : Within S f)
    (reads : ∀ b b', (∀ w ∈ S, b w = b' w) → test b = test b') :
    Within S fun b => if test b then f b else b := by
  refine ⟨fun b w outside => ?_, fun b b' agree w inside => ?_⟩
  · split
    · exact hf.outside b w outside
    · rfl
  · rw [reads b b' agree]
    split
    · exact hf.congr b b' agree w inside
    · exact agree w inside

theorem all_congr {α : Type} {xs : List α} {p q : α → Bool} (h : ∀ x ∈ xs, p x = q x) :
    xs.all p = xs.all q := by
  rw [Bool.eq_iff_iff, List.all_eq_true, List.all_eq_true]
  exact forall₂_congr fun x inside => by rw [h x inside]

theorem within_when {controls : List Nat} (h : ∀ c ∈ controls, c ∈ S) (hf : Within S f) :
    Within S (when controls f) :=
  hf.under fun _ _ agree => all_congr fun c inside => agree c (h c inside)

/-! ## Controls -/

/-- Actions under the same controls are done under them together, if the first leaves the controls
alone. -/
theorem when_when {controls : List Nat} (keeps : ∀ b, ∀ c ∈ controls, f b c = b c) (b : Bits) :
    when controls g (when controls f b) = when controls (fun b => g (f b)) b := by
  by_cases met : controls.all b
  · have still : controls.all (f b) := by
      rw [List.all_eq_true] at met ⊢
      intro c inside
      rw [keeps b c inside]
      exact met c inside
    simp only [when, met, still, if_true]
  · simp only [when, met, Bool.false_eq_true, if_false]

theorem foldl_when {α : Type} {controls : List Nat} {f : α → Bits → Bits} {xs : List α}
    (keeps : ∀ x ∈ xs, ∀ b, ∀ c ∈ controls, f x b c = b c) (b : Bits) :
    xs.foldl (fun b x => when controls (f x) b) b =
      when controls (fun b => xs.foldl (fun b x => f x b) b) b := by
  induction xs generalizing b with
  | nil => simp [when]
  | cons x rest ih =>
    rw [List.foldl_cons, ih fun y inside => keeps y (List.mem_cons_of_mem x inside)]
    exact when_when (keeps x List.mem_cons_self) b

/-- Flips several wires. -/
def negate (wires : List Nat) (b : Bits) : Bits := fun w => if w ∈ wires then !b w else b w

theorem negate_negate (wires : List Nat) (b : Bits) : negate wires (negate wires b) = b := by
  funext w
  by_cases h : w ∈ wires <;> simp [negate, h]

theorem within_negate {wires : List Nat} (h : ∀ w ∈ wires, w ∈ S) : Within S (negate wires) := by
  refine ⟨fun b w outside => ?_, fun b b' agree w inside => ?_⟩
  · rw [negate, if_neg fun inside => outside (h w inside)]
  · rw [negate, negate, agree w inside]

theorem foldl_flip {wires : List Nat} (nodup : wires.Nodup) (b : Bits) :
    wires.foldl (fun b w => flip w b) b = negate wires b := by
  induction wires generalizing b with
  | nil =>
    funext w
    simp [negate]
  | cons first rest ih =>
    obtain ⟨fresh, nodup⟩ := List.nodup_cons.mp nodup
    rw [List.foldl_cons, ih nodup]
    funext w
    by_cases h : w = first
    · subst h
      simp [negate, flip, fresh]
    · simp [negate, flip, h]

/-- The bits meet conditions on their wires. -/
def meets (conditions : List (Nat × Bool)) (b : Bits) : Bool :=
  conditions.all fun (wire, bit) => b wire == bit

/-- The wires that are asked to be off. -/
def antiWires (conditions : List (Nat × Bool)) : List Nat :=
  (conditions.filter (!·.2)).map (·.1)

/-- Conditions are met when all their wires are on once those asked to be off are flipped. -/
theorem all_negate {conditions : List (Nat × Bool)} (nodup : (conditions.map (·.1)).Nodup)
    (b : Bits) :
    (conditions.map (·.1)).all (negate (antiWires conditions) b) = meets conditions b := by
  have anti (c : Nat × Bool) (h : c ∈ conditions) : c.1 ∈ antiWires conditions ↔ c.2 = false := by
    simp only [antiWires, List.mem_map, List.mem_filter, Bool.not_eq_true']
    constructor
    · rintro ⟨other, ⟨inside, off⟩, same⟩
      rw [← List.inj_on_of_nodup_map nodup inside h same]
      exact off
    · exact fun off => ⟨c, ⟨h, off⟩, rfl⟩
  rw [meets, List.all_map, Bool.eq_iff_iff, List.all_eq_true, List.all_eq_true]
  refine forall₂_congr fun c h => ?_
  have := anti c h
  obtain ⟨wire, bit⟩ := c
  cases bit <;> simp_all [negate]

/-- **Flipping the wires that are asked to be off, before and after an action under all controls, is
the action under the conditions.** The action must leave the wires of the conditions alone. -/
theorem sandwich {conditions : List (Nat × Bool)} (nodup : (conditions.map (·.1)).Nodup)
    (hf : Within S f) (apart : ∀ c ∈ conditions, c.1 ∉ S) (b : Bits) :
    negate (antiWires conditions)
        (when (conditions.map (·.1)) f (negate (antiWires conditions) b)) =
      if meets conditions b then f b else b := by
  unfold when
  rw [all_negate nodup]
  split
  · have outside : Within Sᶜ (negate (antiWires conditions)) := by
      apply within_negate
      intro w inside
      obtain ⟨c, h, rfl⟩ := List.mem_map.mp inside
      exact apart c (List.mem_of_mem_filter h)
    have disjoint : Disjoint S Sᶜ := Set.disjoint_left.mpr fun _ inside outside => outside inside
    rw [hf.comm outside disjoint, negate_negate]
  · rw [negate_negate]

/-! ## Passes over cells -/

/-- What leaves the bits alone need not be passed over. -/
theorem foldl_filter {α : Type} {f : α → Bits → Bits} {test : α → Bool} {xs : List α}
    (idle : ∀ x ∈ xs, ¬ test x → ∀ b, f x b = b) (b : Bits) :
    (xs.filter test).foldl (fun b x => f x b) b = xs.foldl (fun b x => f x b) b := by
  induction xs generalizing b with
  | nil => rfl
  | cons x rest ih =>
    have others := ih fun y inside => idle y (List.mem_cons_of_mem x inside)
    by_cases h : test x
    · rw [List.filter_cons_of_pos h, List.foldl_cons, List.foldl_cons, others]
    · rw [List.filter_cons_of_neg h, List.foldl_cons, others, idle x List.mem_cons_self h]

/-- Two passes over a list are one pass if what is done to an element in the second pass may be
done before what is done to the later ones in the first. -/
theorem foldl_foldl {α : Type} {f g : α → Bits → Bits} {xs : List α}
    (comm : xs.Pairwise fun x y => ∀ b, g x (f y b) = f y (g x b)) (b : Bits) :
    xs.foldl (fun b x => g x b) (xs.foldl (fun b x => f x b) b) =
      xs.foldl (fun b x => g x (f x b)) b := by
  induction xs generalizing b with
  | nil => rfl
  | cons x rest ih =>
    obtain ⟨first, others⟩ := List.pairwise_cons.mp comm
    have past (b : Bits) (ys : List α) (sub : ∀ y ∈ ys, y ∈ rest) :
        g x (ys.foldl (fun b y => f y b) b) = ys.foldl (fun b y => f y b) (g x b) := by
      induction ys generalizing b with
      | nil => rfl
      | cons y ys ih =>
        rw [List.foldl_cons, List.foldl_cons, ih _ fun z h => sub z (List.mem_cons_of_mem y h),
          first y (sub y List.mem_cons_self)]
    rw [List.foldl_cons, List.foldl_cons, List.foldl_cons, past _ rest fun _ h => h, ih others]

end Bits

end CircuitGrid
