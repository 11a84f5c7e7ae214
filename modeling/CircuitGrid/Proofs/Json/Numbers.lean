import CircuitGrid.Proofs.Json.Strings
import Mathlib.Data.List.TakeWhile
import Mathlib.Tactic.IntervalCases

/-!
# Written numbers are read back

A natural number is written in decimal and read back if it fits into the wanted word. What is read
of a number does not depend on what follows it, if that ends the number.

* `Ends`: what may follow a written value;
* `Reader.Local`, `Reader.Local.float`: reading a double does not depend on what follows;
* **`Reader.natBelow_toDigits`**: a written natural number;
* `ReadsBack`: doubles whose text is read back;
* `natural_starts`: how the text of a double starts.
-/

namespace CircuitGrid

/-- What may follow a written value: the end of the text, a comma, a closing bracket or a blank. -/
def Ends (rest : List Char) : Prop :=
  ∀ c ∈ rest.head?, c = ',' ∨ c = ']' ∨ c = '\x7d' ∨ Reader.isBlank c

theorem Ends.nil : Ends [] := nofun

theorem Ends.cons {c : Char} {rest : List Char}
    (h : c = ',' ∨ c = ']' ∨ c = '\x7d' ∨ Reader.isBlank c) : Ends (c :: rest) := by
  intro d found
  cases found
  exact h

theorem Ends.head_ne {rest : List Char} (h : Ends rest) {c : Char}
    (other : c ≠ ',' ∧ c ≠ ']' ∧ c ≠ '\x7d' ∧ Reader.isBlank c = false) :
    rest.head? ≠ some c := by
  intro found
  obtain ⟨comma, bracket, brace, blank⟩ := other
  simpa [comma, bracket, brace, blank] using h c found

/-- What follows is left alone where characters of one kind are taken off. -/
theorem Ends.span {rest : List Char} (h : Ends rest) {p : Char → Bool}
    (other : ∀ c, p c → c ≠ ',' ∧ c ≠ ']' ∧ c ≠ '\x7d' ∧ Reader.isBlank c = false)
    (s : List Char) :
    (s ++ rest).takeWhile p = s.takeWhile p ∧ (s ++ rest).dropWhile p = s.dropWhile p ++ rest := by
  induction s with
  | nil =>
    cases rest with
    | nil => exact ⟨rfl, rfl⟩
    | cons c tail =>
      have stop : ¬ p c := fun passes => h.head_ne (other c passes) rfl
      simp [stop]
  | cons c s ih =>
    by_cases passes : p c
    · simp [passes, ih.1, ih.2]
    · simp [passes]

theorem Reader.not_isBlank_of_isDigit {c : Char} (h : c.isDigit) : isBlank c = false := by
  rw [Bool.eq_false_iff]
  intro blank
  simp only [isBlank, Bool.or_eq_true, decide_eq_true_eq] at blank
  rcases blank with ((rfl | rfl) | rfl) | rfl <;> cases h

theorem not_ends_of_isDigit {c : Char} (h : c.isDigit) :
    c ≠ ',' ∧ c ≠ ']' ∧ c ≠ '\x7d' ∧ Reader.isBlank c = false := by
  refine ⟨?_, ?_, ?_, Reader.not_isBlank_of_isDigit h⟩ <;> rintro rfl <;> cases h

namespace Reader

variable {α β : Type}

/-- Reads the digits that have to stand here. -/
def someDigits (f : List Char → α) : Reader (Option α) := do
  match ← digits with
  | [] => digitFault
  | found => return some (f found)

/-! ## Values of another kind -/

theorem peek_eq (s : List Char) :
    peek s = .ok ((s.dropWhile isBlank).head?, s.dropWhile isBlank) := rfl

theorem bind_throw_ne_ok (r : Reader α) (fault : Fault) (s : List Char) (p : β × List Char) :
    (r >>= fun _ => throw fault) s ≠ .ok p := by
  intro h
  cases first : r s with
  | error fault =>
    rw [bind_of_error first] at h
    cases h
  | ok q =>
    obtain ⟨a, middle⟩ := q
    rw [bind_of_ok first] at h
    cases h

/-- A value of the wrong kind is refused. -/
theorem wrongKind_ne_ok (s : List Char) (p : α × List Char) : wrongKind s ≠ .ok p := by
  rw [wrongKind, bind_of_ok (peek_eq s)]
  cases (s.dropWhile isBlank).head? with
  | none => nofun
  | some c =>
    dsimp only
    repeat' split
    · exact bind_throw_ne_ok _ _ _ _
    · exact bind_throw_ne_ok _ _ _ _
    · exact bind_throw_ne_ok _ _ _ _
    · exact bind_throw_ne_ok _ _ _ _
    · rw [bind_of_ok (show advance _ = .ok ((), _) from rfl)]
      exact bind_throw_ne_ok _ _ _ _
    · nofun
    · nofun

theorem anyNumber_of_blank {s : List Char} (h : s.dropWhile isBlank = []) :
    anyNumber s = .error .truncated := by
  rw [anyNumber, bind_of_ok (peek_eq s), h]
  rfl

theorem anyNumber_of_dropWhile {s tail : List Char} {c : Char}
    (h : s.dropWhile isBlank = c :: tail) :
    anyNumber s = (if c = '-' || c.isDigit then number else wrongKind) (c :: tail) := by
  rw [anyNumber, bind_of_ok (peek_eq s), h]
  rfl

/-- Numbers with a point, an exponent or too many digits are never natural numbers. -/
theorem assemble_cases (negative : Bool) (significand : Nat) (shift : Int)
    (exponent : Option (Bool × List Char)) :
    assemble negative significand shift exponent = throw .malformed ∨
      ∃ x, assemble negative significand shift exponent = pure (.float x) := by
  unfold assemble
  split
  split
  · split
    · exact .inl rfl
    · exact .inr ⟨_, rfl⟩
  · split
    · exact .inl rfl
    · exact .inr ⟨_, rfl⟩

/-! ## Reading that stops by itself -/

/-- What a step reads does not depend on what follows it. -/
def Local (r : Reader α) : Prop :=
  ∀ s a left rest, Ends rest → r s = .ok (a, left) → r (s ++ rest) = .ok (a, left ++ rest)

namespace Local

theorem pure (a : α) : Local (pure a : Reader α) := by
  intro s b left rest _ h
  cases h
  rfl

theorem throw (fault : Fault) : Local (throw fault : Reader α) := nofun

theorem bind {r : Reader α} {f : α → Reader β} (hr : Local r) (hf : ∀ a, Local (f a)) :
    Local (r >>= f) := by
  intro s b left rest ends h
  cases first : r s with
  | error fault =>
    rw [bind_of_error first] at h
    cases h
  | ok p =>
    obtain ⟨a, middle⟩ := p
    rw [bind_of_ok first] at h
    rw [bind_of_ok (hr s a middle rest ends first)]
    exact hf a middle b left rest ends h

theorem digitFault : Local (digitFault : Reader α) := by
  intro s a left rest _ h
  cases s <;> cases h

theorem digits : Local digits := by
  intro s found left rest ends h
  cases h
  obtain ⟨taken, dropped⟩ := ends.span (fun c => not_ends_of_isDigit) s
  rw [Reader.digits, taken, dropped]

theorem wholeDigits : Local wholeDigits := by
  unfold Reader.wholeDigits
  refine digits.bind fun found => ?_
  split
  · exact digitFault
  · exact throw _
  · exact pure _

/-- A step that looks at the next character and passes over it if it is of one kind. -/
theorem ifHead (test : Option Char → Prop) [DecidablePred test] (yes no : Option Char → Reader α)
    (stop : ∀ rest, Ends rest → ¬ test rest.head?) (hyes : ∀ c, Local (yes (some c)))
    (hno : ∀ c, Local (no (some c)))
    (empty : ∀ rest a left, Ends rest → no none [] = .ok (a, left) →
      no rest.head? rest = .ok (a, left ++ rest)) :
    Local (do
      let s ← get
      if test s.head? then
        advance
        yes s.head?
      else no s.head?) := by
  intro s a left rest ends h
  have open_ : ∀ s, (do
      let s ← get
      if test s.head? then
        advance
        yes s.head?
      else no s.head? : Reader α) s =
        (if test s.head? then advance >>= fun _ => yes s.head? else no s.head?) s := fun _ => rfl
  rw [open_] at h ⊢
  cases s with
  | nil =>
    rw [if_neg (stop [] Ends.nil)] at h
    rw [List.nil_append, if_neg (stop rest ends)]
    exact empty rest a left ends h
  | cons c tail =>
    rw [List.cons_append, List.head?_cons] at *
    split at h
    · next passes =>
      rw [if_pos passes]
      exact hyes c tail a left rest ends h
    · next fails =>
      rw [if_neg fails]
      exact hno c (c :: tail) a left rest ends h

theorem someDigits (f : List Char → α) : Local (someDigits f) := by
  refine digits.bind fun found => ?_
  split
  · exact digitFault
  · exact pure _

theorem fractionDigits : Local fractionDigits := by
  refine ifHead (· = some '.') (fun _ => Reader.someDigits id) (fun _ => Pure.pure none) ?_
    (fun _ => someDigits id) (fun _ => pure _) ?_
  · exact fun rest ends => ends.head_ne (by decide)
  · intro rest a left _ h
    cases h
    rfl

theorem exponentDigits : Local exponentDigits := by
  let size : Option Char → Reader (Option (Bool × List Char)) := fun sign =>
    Reader.someDigits fun found => (sign = some '-', found)
  have sized : ∀ sign, Local (size sign) := fun sign => someDigits _
  refine ifHead (fun next => next = some 'e' ∨ next = some 'E') (fun _ => do
      let s ← get
      if s.head? = some '+' ∨ s.head? = some '-' then
        advance
        size s.head?
      else size s.head?) (fun _ => Pure.pure none) ?_ ?_ ?_ ?_
  · exact fun rest ends => not_or.mpr ⟨ends.head_ne (by decide), ends.head_ne (by decide)⟩
  · refine fun _ => ifHead (fun sign => sign = some '+' ∨ sign = some '-') size size ?_
      (fun c => sized (some c)) (fun c => sized (some c)) ?_
    · exact fun rest ends => not_or.mpr ⟨ends.head_ne (by decide), ends.head_ne (by decide)⟩
    · intro rest a left _ h
      cases h
  · exact fun _ => pure _
  · intro rest a left _ h
    cases h
    rfl

theorem assemble (negative : Bool) (significand : Nat) (shift : Int)
    (exponent : Option (Bool × List Char)) :
    Local (assemble negative significand shift exponent) := by
  rcases assemble_cases negative significand shift exponent with refused | ⟨x, done⟩
  · rw [refused]
    exact throw _
  · rw [done]
    exact pure _

theorem unsigned (negative : Bool) : Local (unsigned negative) := by
  unfold Reader.unsigned
  refine wholeDigits.bind fun whole => ?_
  dsimp only
  refine fractionDigits.bind fun fraction => ?_
  refine exponentDigits.bind fun exponent => ?_
  split
  · split
    · exact pure _
    · exact pure _
  · exact assemble _ _ _ _

theorem number : Local number := by
  refine ifHead (· = some '-') (fun _ => Reader.unsigned true) (fun _ => Reader.unsigned false) ?_
    (fun _ => unsigned true) (fun _ => unsigned false) ?_
  · exact fun rest ends => ends.head_ne (by decide)
  · intro rest a left _ h
    cases h

theorem float : Local float := by
  refine bind ?_ fun found => pure _
  intro s a left rest ends h
  cases found : s.dropWhile isBlank with
  | nil =>
    rw [anyNumber_of_blank found] at h
    cases h
  | cons c tail =>
    have dropped : (s ++ rest).dropWhile isBlank = c :: (tail ++ rest) := by
      rw [List.dropWhile_append, found]
      rfl
    rw [anyNumber_of_dropWhile found] at h
    rw [anyNumber_of_dropWhile dropped]
    split at h
    · next starts =>
      rw [if_pos starts]
      exact number (c :: tail) a left rest ends h
    · exact absurd h (wrongKind_ne_ok _ _)

end Local

/-! ## Natural numbers -/

theorem collectDigits_of_lt {limit : Nat} {ds : List Char} {start : Nat}
    (h : Nat.ofDigitChars 10 ds start < limit) :
    collectDigits limit start ds = (Nat.ofDigitChars 10 ds start, []) := by
  induction ds generalizing start with
  | nil => rfl
  | cons c rest ih =>
    have step : Nat.ofDigitChars 10 (c :: rest) start =
        Nat.ofDigitChars 10 rest (start * 10 + (c.toNat - 48)) := by
      rw [Nat.ofDigitChars_cons, Nat.mul_comm]
      rfl
    rw [step] at h ⊢
    have grows : start * 10 + (c.toNat - 48) ≤
        Nat.ofDigitChars 10 rest (start * 10 + (c.toNat - 48)) := by
      rw [Nat.ofDigitChars_eq_ofDigitChars_zero]
      exact Nat.le_add_right_of_le (Nat.le_mul_of_pos_left _ (Nat.pow_pos (by omega)))
    have fits : start * 10 + (c.toNat - 48) < limit := by omega
    rw [collectDigits]
    simp only [fits, if_true]
    exact ih h

/-- All digits are taken only if the number they denote fits. -/
theorem lt_of_collectDigits {limit : Nat} {ds : List Char} {start found : Nat} (low : start < limit)
    (h : collectDigits limit start ds = (found, [])) : Nat.ofDigitChars 10 ds start < limit := by
  induction ds generalizing start with
  | nil => exact low
  | cons c rest ih =>
    have step : Nat.ofDigitChars 10 (c :: rest) start =
        Nat.ofDigitChars 10 rest (start * 10 + (c.toNat - 48)) := by
      rw [Nat.ofDigitChars_cons, Nat.mul_comm]
      rfl
    rw [collectDigits] at h
    rw [step]
    split at h
    · next fits => exact ih fits h
    · cases h

/-- Only zero is written with a leading zero. -/
theorem toDigits_eq_zero_cons {n : Nat} {tail : List Char} (h : Nat.toDigits 10 n = '0' :: tail) :
    tail = [] := by
  have head : ∀ n, 0 < n → (Nat.toDigits 10 n).head? ≠ some '0' := by
    intro n
    induction n using Nat.strongRecOn with
    | ind n ih =>
      intro pos
      rw [Nat.toDigits_eq_if (by omega)]
      split
      · next digit =>
        interval_cases n <;> decide
      · next large =>
        have first := ih (n / 10) (by omega) (by omega)
        cases digits : Nat.toDigits 10 (n / 10) with
        | nil => exact absurd digits Nat.toDigits_ne_nil
        | cons c tail =>
          rw [digits] at first
          exact first
  rcases Nat.eq_zero_or_pos n with rfl | pos
  · cases h
    rfl
  · exact absurd (by rw [h]; rfl) (head n pos)

theorem isDigit_of_mem_toDigits {n : Nat} {c : Char} (h : c ∈ Nat.toDigits 10 n) : c.isDigit :=
  Nat.isDigit_of_mem_toDigits (by omega) (by omega) h

theorem wholeDigits_of_digits {s found left : List Char} (h : digits s = .ok (found, left))
    (some : found ≠ []) (zero : ∀ tail, found = '0' :: tail → tail = []) :
    wholeDigits s = .ok (found, left) := by
  rw [wholeDigits, bind_of_ok h]
  split
  · exact absurd rfl some
  · exact absurd (zero _ rfl) (by simp)
  · rfl

theorem wholeDigits_toDigits (n : Nat) {rest : List Char} (ends : Ends rest) :
    wholeDigits (Nat.toDigits 10 n ++ rest) = .ok (Nat.toDigits 10 n, rest) := by
  have all : ∀ c ∈ Nat.toDigits 10 n, c.isDigit := fun c => isDigit_of_mem_toDigits
  have found : digits (Nat.toDigits 10 n) = .ok (Nat.toDigits 10 n, []) := by
    rw [digits, List.takeWhile_eq_self_iff.mpr all, List.dropWhile_eq_nil_iff.mpr all]
  refine Local.wholeDigits _ _ [] _ ends ?_
  exact wholeDigits_of_digits found Nat.toDigits_ne_nil fun _ => toDigits_eq_zero_cons

/-- A written natural number is read as one if it fits into 64 bits, and not otherwise. -/
theorem unsigned_toDigits (n : Nat) {rest : List Char} (ends : Ends rest) :
    (n < 2 ^ 64 → unsigned false (Nat.toDigits 10 n ++ rest) = .ok (.nat n, rest)) ∧
      (2 ^ 64 ≤ n → ∀ m left, unsigned false (Nat.toDigits 10 n ++ rest) ≠ .ok (.nat m, left)) := by
  have fraction : fractionDigits rest = .ok (none, rest) :=
    Local.fractionDigits [] none [] rest ends rfl
  have exponent : exponentDigits rest = .ok (none, rest) :=
    Local.exponentDigits [] none [] rest ends rfl
  rw [unsigned, bind_of_ok (wholeDigits_toDigits n ends)]
  constructor
  · intro low
    have taken : collectDigits (Nat.pow 2 64) 0 (Nat.toDigits 10 n) = (n, []) := by
      rw [collectDigits_of_lt (by rwa [Nat.ofDigitChars_ten_toDigits]), Nat.ofDigitChars_ten_toDigits]
    rw [taken]
    dsimp only
    rw [bind_of_ok fraction]
    dsimp only
    rw [bind_of_ok exponent]
    rfl
  · intro high m left
    cases taken : collectDigits (Nat.pow 2 64) 0 (Nat.toDigits 10 n) with
    | mk significand overflow =>
      have more : overflow ≠ [] := by
        rintro rfl
        have low := lt_of_collectDigits (by decide) taken
        rw [Nat.ofDigitChars_ten_toDigits] at low
        exact absurd low (by show ¬ n < 2 ^ 64; omega)
      dsimp only
      rw [bind_of_ok fraction]
      dsimp only
      rw [bind_of_ok exponent, if_neg (by simp [more])]
      rcases assemble_cases false significand (overflow.length - (0 : Nat) : Int) none with
        refused | ⟨x, done⟩
      · rw [refused]
        nofun
      · rw [done]
        nofun

theorem number_cons {c : Char} {tail : List Char} (h : c.isDigit) :
    number (c :: tail) = unsigned false (c :: tail) := by
  have sign : c ≠ '-' := by
    rintro rfl
    cases h
  show (if (c :: tail).head? = some '-' then _ else unsigned false : Reader Number) (c :: tail) = _
  rw [if_neg (by simpa using sign)]

theorem anyNumber_cons {c : Char} {tail : List Char} (h : c.isDigit) :
    anyNumber (c :: tail) = unsigned false (c :: tail) := by
  rw [anyNumber, bind_of_ok (peek_cons (not_isBlank_of_isDigit h))]
  dsimp only
  rw [if_pos (by simp [h]), number_cons h]

/-- **A written natural number is read back** if it is below the limit, and refused otherwise. -/
theorem natBelow_toDigits {limit : Nat} (word : limit ≤ 2 ^ 64) (n : Nat) {rest : List Char}
    (ends : Ends rest) : Yields (natBelow limit) (Nat.toDigits 10 n ++ rest) n rest (n < limit) := by
  have start : anyNumber (Nat.toDigits 10 n ++ rest) = unsigned false (Nat.toDigits 10 n ++ rest) := by
    cases digits : Nat.toDigits 10 n with
    | nil => exact absurd digits Nat.toDigits_ne_nil
    | cons c tail =>
      have digit : c.isDigit := isDigit_of_mem_toDigits (by rw [digits]; exact List.mem_cons_self)
      exact anyNumber_cons digit
  obtain ⟨fits, overflows⟩ := unsigned_toDigits n ends
  unfold natBelow
  constructor
  · intro low
    rw [bind_of_ok (start.trans (fits (by omega)))]
    dsimp only
    rw [if_pos low]
    rfl
  · intro high
    by_cases wide : n < 2 ^ 64
    · rw [bind_of_ok (start.trans (fits wide))]
      dsimp only
      rw [if_neg high]
      exact ⟨_, rfl⟩
    · cases found : unsigned false (Nat.toDigits 10 n ++ rest) with
      | error fault => exact ⟨fault, bind_of_error (start.trans found)⟩
      | ok p =>
        obtain ⟨number, left⟩ := p
        rw [bind_of_ok (start.trans found)]
        cases number with
        | nat m => exact absurd found (overflows (by omega) m left)
        | float x => exact ⟨_, rfl⟩

end Reader

/-! ## Doubles -/

/-- The text of a double is read back to its end. -/
def ReadsBack (x : Float) : Prop := Reader.float (Json.ofFloat x).toList = .ok (x, [])

instance (x : Float) : Decidable (ReadsBack x) :=
  inferInstanceAs (Decidable (Reader.float (Json.ofFloat x).toList = .ok (x, [])))

/-- A double whose text is read back is read back wherever its text stands. -/
theorem ReadsBack.float {x : Float} (h : ReadsBack x) {rest : List Char} (ends : Ends rest) :
    Reader.float ((Json.ofFloat x).toList ++ rest) = .ok (x, rest) :=
  Reader.Local.float _ _ _ _ ends h

/-- What is not finite has no text that is read back. -/
theorem ReadsBack.isFinite {x : Float} (h : ReadsBack x) : x.isFinite := by
  by_contra infinite
  rw [ReadsBack, Json.ofFloat, if_neg infinite] at h
  exact absurd h nofun

example : ReadsBack (-0.25) := by decide +kernel

theorem toList_pushn (s : String) (c : Char) (n : Nat) :
    (s.pushn c n).toList = s.toList ++ List.replicate n c := by
  rw [String.pushn_eq_repeat_push]
  induction n with
  | zero => simp [Nat.repeat]
  | succ n ih => rw [Nat.repeat, String.toList_push, ih, List.append_assoc, List.replicate_succ']

theorem positional_starts {digits : String} {c : Char} {tail : List Char} (leading : Int)
    (h : digits.toList = c :: tail) (digit : c.isDigit) :
    ∃ c tail, (positional digits leading).toList = c :: tail ∧ c.isDigit := by
  unfold positional
  dsimp only
  split
  · simp only [String.toList_append]
    exact ⟨'0', _, rfl, rfl⟩
  · split
    · rw [String.toList_append, toList_pushn, h]
      exact ⟨c, _, rfl, digit⟩
    · rw [String.toList_append, String.toList_append, String.toList_ofList, h, List.take_succ_cons]
      exact ⟨c, _, rfl, digit⟩

theorem scientific_starts {digits : String} {c : Char} {tail : List Char} (leading : Int)
    (h : digits.toList = c :: tail) (digit : c.isDigit) :
    ∃ c tail, (scientific digits leading).toList = c :: tail ∧ c.isDigit := by
  have head : ∀ rest : String, (String.ofList (digits.toList.take 1) ++ rest).toList =
      c :: rest.toList := by
    intro rest
    rw [String.toList_append, String.toList_ofList, h]
    rfl
  unfold scientific
  dsimp only
  split
  · rw [String.append_assoc, String.append_assoc, head]
    exact ⟨c, _, rfl, digit⟩
  · rw [String.append_assoc, String.append_assoc, String.append_assoc, String.append_assoc, head]
    exact ⟨c, _, rfl, digit⟩

/-- The text of a double starts with a sign or a digit. -/
theorem natural_starts (x : Float) :
    ∃ c tail, (natural x).toList = c :: tail ∧ (c = '-' ∨ c.isDigit) := by
  have unsigned : ∃ c tail, ((if (Dyadic.ofFloat x).mantissa = 0 then "0.0" else
      let decimal := (Dyadic.ofFloat x).shortest
      let digits := toString decimal.digits
      let leading := decimal.exponent + digits.length - 1
      if -5 ≤ leading ∧ leading ≤ 15 then positional digits leading
        else scientific digits leading) : String).toList = c :: tail ∧ c.isDigit := by
    split
    · exact ⟨'0', _, rfl, rfl⟩
    · cases digits : Nat.toDigits 10 (Dyadic.ofFloat x).shortest.digits with
      | nil => exact absurd digits Nat.toDigits_ne_nil
      | cons c tail =>
        have digit : c.isDigit :=
          Reader.isDigit_of_mem_toDigits (by rw [digits]; exact List.mem_cons_self)
        have text : (toString (Dyadic.ofFloat x).shortest.digits).toList = c :: tail := by
          rw [Nat.toString_eq_repr, Nat.toList_repr, digits]
        dsimp only
        split
        · exact positional_starts _ text digit
        · exact scientific_starts _ text digit
  unfold natural
  dsimp only
  by_cases negative : isNegative x
  · rw [if_pos negative]
    split <;> rw [String.toList_append] <;> exact ⟨'-', _, rfl, .inl rfl⟩
  · rw [if_neg negative]
    obtain ⟨c, tail, text, digit⟩ := unsigned
    refine ⟨c, tail, ?_, .inr digit⟩
    rw [← text]
    split <;> simp

end CircuitGrid
