import CircuitGrid.Json.Number
import CircuitGrid.Json.Value

/-!
# Written strings are read back

A string is written with its quotes, backslashes and control characters escaped. Reading undoes each
escape by itself, so a written string is read back whatever follows its closing quote.

* `Reader.bind_of_ok`, `Reader.bind_of_error`: steps one after the other;
* `Reader.Yields`: when a step succeeds, and with what;
* `Reader.textBody_escaped`: one written character;
* **`Reader.text_quoted`**: a written string.
-/

namespace CircuitGrid

namespace Reader

variable {α β : Type} {s s' : List Char}

/-! ## Steps -/

theorem bind_of_ok {r : Reader α} {f : α → Reader β} {a : α} (h : r s = .ok (a, s')) :
    (r >>= f) s = f a s' := by
  show Except.bind (r s) _ = _
  rw [h]
  rfl

theorem bind_of_error {r : Reader α} {f : α → Reader β} {fault : Fault} (h : r s = .error fault) :
    (r >>= f) s = .error fault := by
  show Except.bind (r s) _ = _
  rw [h]
  rfl

theorem peek_cons {c : Char} (h : isBlank c = false) : peek (c :: s) = .ok (some c, c :: s) := by
  show Except.ok (((c :: s).dropWhile isBlank).head?, (c :: s).dropWhile isBlank) = _
  rw [List.dropWhile_cons_of_neg (by simp [h])]
  rfl

theorem advance_cons (c : Char) : advance (c :: s) = .ok ((), s) := rfl

/-- A step reads `a` and leaves `rest` if a condition holds, and is refused otherwise. -/
def Yields (r : Reader α) (s : List Char) (a : α) (rest : List Char) (ok : Prop) : Prop :=
  (ok → r s = .ok (a, rest)) ∧ (¬ ok → ∃ fault, r s = .error fault)

namespace Yields

variable {r : Reader α} {f : α → Reader β} {a : α} {b : β} {middle rest : List Char} {ok ok' : Prop}

theorem of_ok (h : r s = .ok (a, rest)) : Yields r s a rest True :=
  ⟨fun _ => h, fun not => absurd trivial not⟩

theorem congr (h : Yields r s a rest ok) (same : ok ↔ ok') : Yields r s a rest ok' :=
  propext same ▸ h

theorem bind (first : Yields r s a middle ok) (second : Yields (f a) middle b rest ok') :
    Yields (r >>= f) s b rest (ok ∧ ok') := by
  constructor
  · intro both
    rw [bind_of_ok (first.1 both.1)]
    exact second.1 both.2
  · intro not
    by_cases holds : ok
    · rw [bind_of_ok (first.1 holds)]
      exact second.2 fun holds' => not ⟨holds, holds'⟩
    · obtain ⟨fault, failed⟩ := first.2 holds
      exact ⟨fault, bind_of_error failed⟩

/-- A step that always succeeds comes first. -/
theorem after (first : r s = .ok (a, middle)) (second : Yields (f a) middle b rest ok) :
    Yields (r >>= f) s b rest ok := by
  rw [Yields, bind_of_ok first]
  exact second

theorem map {g : α → β} (h : Yields r s a rest ok) : Yields (do return g (← r)) s (g a) rest ok :=
  (h.bind (of_ok (a := g a) rfl)).congr (and_iff_left trivial)

end Yields

/-! ## Strings -/

theorem hexValue?_hexDigit {n : Nat} (h : n < 16) : hexValue? (Json.hexDigit n) = some n := by
  revert n
  decide

/-- The code of a control character is read back. -/
theorem textBody_code {done rest : List Char} {c : Char} (h : c.toNat < 0x20) :
    textBody done ('\\' :: 'u' :: '0' :: '0' :: Json.hexDigit (c.toNat / 16) ::
      Json.hexDigit (c.toNat % 16) :: rest) = textBody (c :: done) rest := by
  have value : hexValue4? '0' '0' (Json.hexDigit (c.toNat / 16)) (Json.hexDigit (c.toNat % 16)) =
      some c.toNat := by
    have zero : hexValue? '0' = some 0 := rfl
    rw [hexValue4?, zero, hexValue?_hexDigit (by omega), hexValue?_hexDigit (by omega)]
    show some (((0 * 16 + 0) * 16 + c.toNat / 16) * 16 + c.toNat % 16) = some c.toNat
    congr 1
    omega
  have low : isLowHalf c.toNat = false := by
    simp only [isLowHalf, Bool.and_eq_false_imp, decide_eq_true_eq, decide_eq_false_iff_not]
    omega
  have high : isHighHalf c.toNat = false := by
    simp only [isHighHalf, Bool.and_eq_false_imp, decide_eq_true_eq, decide_eq_false_iff_not]
    omega
  rw [textBody]
  simp only [value, low, high, Char.ofNat_toNat, Bool.false_eq_true, if_false]

/-- One written character of a string is read back. -/
theorem textBody_escaped (done rest : List Char) (c : Char) :
    textBody done (Json.escaped c ++ rest) = textBody (c :: done) rest := by
  unfold Json.escaped
  split
  · next h => subst h; rfl
  split
  · next h => subst h; rfl
  split
  · next h => subst h; rfl
  split
  · next h => subst h; rfl
  split
  · next h => subst h; rfl
  split
  · next h => subst h; rfl
  split
  · next h => subst h; rfl
  split
  · next low => exact textBody_code low
  · next quote backslash _ _ _ _ _ plain =>
    show textBody done (c :: rest) = _
    rw [textBody.eq_def]
    split <;> simp_all [Nat.not_lt_of_le]

theorem textBody_flatMap_escaped (done body rest : List Char) :
    textBody done (body.flatMap Json.escaped ++ '"' :: rest) = .ok (done.reverse ++ body, rest) := by
  induction body generalizing done with
  | nil => simp [textBody]
  | cons c body ih =>
    rw [List.flatMap_cons, List.append_assoc, textBody_escaped, ih]
    simp

theorem toList_quoted (s : String) :
    (Json.quoted s).toList = '"' :: (s.toList.flatMap Json.escaped ++ ['"']) := by
  simp [Json.quoted]

/-- **A written string is read back.** -/
theorem text_quoted (s : String) (rest : List Char) :
    text ((Json.quoted s).toList ++ rest) = .ok (s, rest) := by
  rw [toList_quoted, List.cons_append, List.append_assoc, List.singleton_append, text,
    bind_of_ok (peek_cons rfl)]
  show (advance >>= fun _ => textTail) _ = _
  rw [bind_of_ok (advance_cons _), textTail, textBody_flatMap_escaped]
  simp

end Reader

end CircuitGrid
