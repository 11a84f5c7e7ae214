import CircuitGrid.Proofs.Equality

/-!
# The sign of zero

The two zeros are equal as numbers. Sums and products of numbers that are equal in this sense are
equal in it, and magnitudes are the same. So the check of a matrix does not see the signs of its
zeros.

* `Alike`: equal but for the sign of zero;
* `Alike.add`, `Alike.sub`, `Alike.mul`, `Alike.abs`;
* **`Matrix.isUnitary_congr`**, `checkMatrix_congr`: equal matrices pass the same checks;
* **`checkCircuit_of_beq`**: equal circuits are well formed together.
-/

namespace CircuitGrid

open Float.Model (UnpackedFloat)

/-- Two doubles are the same but for the sign of zero. -/
def Alike (x y : Float) : Prop :=
  x = y ∨ ∃ s t, x.toModel = .pack (.zero s) ∧ y.toModel = .pack (.zero t)

/-- Two unpacked doubles are the same but for the sign of zero. -/
def UnpackedAlike (a b : UnpackedFloat) : Prop := a = b ∨ ∃ s t, a = .zero s ∧ b = .zero t

namespace UnpackedAlike

open Float.Model.UnpackedFloat (add sub mul)

variable {a a' b b' : UnpackedFloat} {spec : Float.Model.Format}

theorem trans {c : UnpackedFloat} (h : UnpackedAlike a b) (k : UnpackedAlike b c) :
    UnpackedAlike a c := by
  rcases h with rfl | ⟨s, t, rfl, rfl⟩
  · exact k
  · rcases k with rfl | ⟨_, u, _, rfl⟩ <;> exact .inr ⟨_, _, rfl, rfl⟩

/-- An operation that does not see the sign of a zero on either side. -/
theorem of_sides {op : UnpackedFloat → UnpackedFloat → UnpackedFloat}
    (left : ∀ s t b, UnpackedAlike (op (.zero s) b) (op (.zero t) b))
    (right : ∀ s t a, UnpackedAlike (op a (.zero s)) (op a (.zero t)))
    (h : UnpackedAlike a a') (k : UnpackedAlike b b') : UnpackedAlike (op a b) (op a' b') := by
  have first : UnpackedAlike (op a b) (op a' b) := by
    rcases h with rfl | ⟨s, t, rfl, rfl⟩
    · exact .inl rfl
    · exact left s t b
  refine first.trans ?_
  rcases k with rfl | ⟨s, t, rfl, rfl⟩
  · exact .inl rfl
  · exact right s t a'

protected theorem add (h : UnpackedAlike a a') (k : UnpackedAlike b b') :
    UnpackedAlike (add spec a b) (add spec a' b') := by
  refine of_sides (fun s t b => ?_) (fun s t a => ?_) h k
  · cases b with
    | zero u => cases s <;> cases t <;> cases u <;> exact .inr ⟨_, _, rfl, rfl⟩
    | _ => exact .inl rfl
  · cases a with
    | zero u => cases s <;> cases t <;> cases u <;> exact .inr ⟨_, _, rfl, rfl⟩
    | _ => exact .inl rfl

protected theorem sub (h : UnpackedAlike a a') (k : UnpackedAlike b b') :
    UnpackedAlike (sub spec a b) (sub spec a' b') := by
  refine of_sides (fun s t b => ?_) (fun s t a => ?_) h k
  · cases b with
    | zero u => cases s <;> cases t <;> cases u <;> exact .inr ⟨_, _, rfl, rfl⟩
    | _ => exact .inl rfl
  · cases a with
    | zero u => cases s <;> cases t <;> cases u <;> exact .inr ⟨_, _, rfl, rfl⟩
    | _ => exact .inl rfl

protected theorem mul (h : UnpackedAlike a a') (k : UnpackedAlike b b') :
    UnpackedAlike (mul spec a b) (mul spec a' b') := by
  refine of_sides (fun s t b => ?_) (fun s t a => ?_) h k
  · cases b with
    | notANumber => exact .inl rfl
    | infinity => exact .inl rfl
    | _ => exact .inr ⟨_, _, rfl, rfl⟩
  · cases a with
    | notANumber => exact .inl rfl
    | infinity => exact .inl rfl
    | _ => exact .inr ⟨_, _, rfl, rfl⟩

protected theorem neg (h : UnpackedAlike a b) : UnpackedAlike a.neg b.neg := by
  rcases h with rfl | ⟨s, t, rfl, rfl⟩
  · exact .inl rfl
  · exact .inr ⟨_, _, rfl, rfl⟩

protected theorem abs (h : UnpackedAlike a b) : a.abs = b.abs := by
  rcases h with rfl | ⟨s, t, rfl, rfl⟩ <;> rfl

end UnpackedAlike

namespace Alike

variable {x x' y y' : Float}

theorem of_beq (h : x == y) : Alike x y := by
  obtain ⟨-, -, same | ⟨rfl, rfl⟩ | ⟨rfl, rfl⟩⟩ := Float.beq_iff_ne_nan_and_eq.mp h
  · exact .inl same
  · exact .inr ⟨.positive, .negative, by decide +kernel, by decide +kernel⟩
  · exact .inr ⟨.negative, .positive, by decide +kernel, by decide +kernel⟩

theorem unpack (h : Alike x y) : UnpackedAlike x.toModel.unpack y.toModel.unpack := by
  have zero : ∀ s, (Float.Model.pack (.zero s)).unpack = .zero s := fun s =>
    Float.Model.UnpackedFloat.unpack_packedZero
  rcases h with rfl | ⟨s, t, hx, hy⟩
  · exact .inl rfl
  · exact .inr ⟨s, t, by rw [hx, zero], by rw [hy, zero]⟩

theorem pack {a b : UnpackedFloat} (h : UnpackedAlike a b) :
    Alike (.ofModel (.pack a)) (.ofModel (.pack b)) := by
  rcases h with rfl | ⟨s, t, rfl, rfl⟩
  · exact .inl rfl
  · exact .inr ⟨s, t, rfl, rfl⟩

theorem add (h : Alike x x') (k : Alike y y') : Alike (x + y) (x' + y') := pack (h.unpack.add k.unpack)

theorem sub (h : Alike x x') (k : Alike y y') : Alike (x - y) (x' - y') := pack (h.unpack.sub k.unpack)

theorem mul (h : Alike x x') (k : Alike y y') : Alike (x * y) (x' * y') := pack (h.unpack.mul k.unpack)

theorem neg (h : Alike x y) : Alike (-x) (-y) := pack h.unpack.neg

theorem abs (h : Alike x y) : x.abs = y.abs :=
  congrArg (fun a => Float.ofModel (.pack a)) h.unpack.abs

end Alike

/-! ## Complex numbers and matrices -/

/-- Two complex numbers are the same but for the signs of zeros. -/
def Complex.Alike (z w : Complex) : Prop := CircuitGrid.Alike z.re w.re ∧ CircuitGrid.Alike z.im w.im

namespace Complex

variable {z z' w w' : Complex}

theorem Alike.refl (z : Complex) : Alike z z := ⟨.inl rfl, .inl rfl⟩

theorem Alike.add (h : Alike z z') (k : Alike w w') : Alike (z.add w) (z'.add w') :=
  ⟨h.1.add k.1, h.2.add k.2⟩

theorem Alike.sub (h : Alike z z') (k : Alike w w') : Alike (z.sub w) (z'.sub w') :=
  ⟨h.1.sub k.1, h.2.sub k.2⟩

theorem Alike.conj (h : Alike z w) : Alike z.conj w.conj := ⟨h.1, h.2.neg⟩

theorem Alike.mul (h : Alike z z') (k : Alike w w') : Alike (z.mul w) (z'.mul w') :=
  ⟨(h.1.mul k.1).sub (h.2.mul k.2), (h.1.mul k.2).add (h.2.mul k.1)⟩

/-- The modulus does not see the sign of zero. -/
theorem Alike.modulus (h : Alike z w) : z.modulus = w.modulus := by
  unfold Complex.modulus
  rw [h.1.abs, h.2.abs]

end Complex

namespace Matrix

variable {m m' : Matrix}

theorem inner_alike {a a' b b' : List Complex} (h : List.Forall₂ Complex.Alike a a')
    (k : List.Forall₂ Complex.Alike b b') : (inner a b).Alike (inner a' b') := by
  unfold inner
  have sums : ∀ sum sum' : Complex, sum.Alike sum' →
      ((a.zip b).foldl (fun sum p => sum.add (p.1.mul p.2.conj)) sum).Alike
        ((a'.zip b').foldl (fun sum p => sum.add (p.1.mul p.2.conj)) sum') := by
    induction h generalizing b b' with
    | nil => exact fun _ _ same => same
    | cons first _ ih =>
      cases k with
      | nil => exact fun _ _ same => same
      | cons first' others' => exact fun _ _ same => ih others' _ _ (same.add (first.mul first'.conj))
  exact sums _ _ (.refl _)

theorem all_congr {α β : Type} {R : α → β → Prop} {p : α → Bool} {q : β → Bool} {as : List α}
    {bs : List β} (h : List.Forall₂ R as bs) (same : ∀ a b, R a b → p a = q b) :
    as.all p = bs.all q := by
  induction h with
  | nil => rfl
  | cons first _ ih => rw [List.all_cons, List.all_cons, same _ _ first, ih]

theorem rows_alike (h : List.Forall₂ Complex.Alike m m') (side : Nat) :
    List.Forall₂ (fun p q => List.Forall₂ Complex.Alike p.1 q.1 ∧ p.2 = q.2)
      (m.rows side).zipIdx (m'.rows side).zipIdx := by
  have rows : List.Forall₂ (List.Forall₂ Complex.Alike) (m.rows side) (m'.rows side) := by
    unfold Matrix.rows
    rw [List.forall₂_map_left_iff, List.forall₂_map_right_iff, List.forall₂_same]
    exact fun i _ => List.forall₂_take side (List.forall₂_drop (i * side) h)
  generalize m.rows side = as, m'.rows side = bs, 0 = start at rows
  induction rows generalizing start with
  | nil => exact .nil
  | cons first _ ih => exact .cons ⟨first, rfl⟩ (ih _)

/-- **Matrices that are the same but for the signs of zeros are unitary together.** -/
theorem isUnitary_congr (h : List.Forall₂ Complex.Alike m m') (side : Nat) :
    m.isUnitary side = m'.isUnitary side := by
  unfold isUnitary
  rw [h.length_eq]
  congr 1
  have rows := rows_alike h side
  refine all_congr rows fun (a, i) (a', _) ⟨same, index⟩ => ?_
  cases index
  refine all_congr rows fun (b, j) (b', _) ⟨same', index'⟩ => ?_
  cases index'
  dsimp only
  rw [((inner_alike same same').sub (.refl _)).modulus]

end Matrix

/-- **Equal matrices pass the same checks.** -/
theorem checkMatrix_congr {matrix matrix' : Option Matrix} (h : matrix == matrix') (gate : String)
    (height : Nat) : checkMatrix gate height matrix = checkMatrix gate height matrix' := by
  cases matrix with
  | none =>
    cases matrix' with
    | none => rfl
    | some m' => cases h
  | some m =>
    cases matrix' with
    | none => cases h
    | some m' =>
      have alike : List.Forall₂ Complex.Alike m m' := by
        refine (beq_list_iff.mp h).imp fun z w same => ?_
        obtain ⟨re, im⟩ := Complex.beq_iff.mp same
        exact ⟨.of_beq re, .of_beq im⟩
      simp only [checkMatrix, alike.length_eq, Matrix.unitary?, Matrix.isUnitary_congr alike]

/-- **A circuit is well formed if an equal one is.** -/
theorem checkCircuit_of_beq {c c' : Circuit} (same : c == c') (valid : checkCircuit c' = .ok ()) :
    checkCircuit c = .ok () := by
  induction c using Circuit.nesting_induction generalizing c' with
  | step c ih =>
    obtain ⟨wires, columns⟩ := Circuit.beq_iff.mp same
    rw [checkCircuit_eq_ok] at valid ⊢
    constructor
    · intro column inside
      obtain ⟨column', inside', same⟩ := exists_right_of_mem columns inside
      rw [wires]
      exact same.fits (valid.1 column' inside')
    · intro g inside
      obtain ⟨g', inside', gates⟩ := inside.of_beq same
      have sound := checkGate_eq_ok.mp (valid.2 g' inside')
      rw [checkGate_eq_ok, gates.id, gates.height, checkMatrix_congr gates.matrix]
      refine ⟨sound.1, fun body nested => ?_⟩
      obtain ⟨body', nested', bodies⟩ := gates.body nested
      obtain ⟨low, valid'⟩ := sound.2 body' nested'
      exact ⟨(Circuit.beq_iff.mp bodies).1 ▸ low, ih g inside body nested bodies valid'⟩

end CircuitGrid
