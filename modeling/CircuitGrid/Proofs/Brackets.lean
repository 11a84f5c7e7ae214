import Mathlib.Data.List.Basic

/-!
# Elements of lists in a text

A list in a program text is divided by commas, but an element may have brackets with further commas
inside. So a text is read from left to right together with the depth in brackets, and the elements
of a list are told apart by the commas at depth zero.

* `Outside`: texts with matching brackets, and what is outside of them;
* `elements`: the elements of a list;
* **`elements_intercalate`**: they are those that were put into it.
-/

namespace CircuitGrid

/-! ## Brackets -/

/-- Whether a character is a bracket of any kind. -/
def isBracket (c : Char) : Bool := ['(', ')', '[', ']'].contains c

/-- The brackets of the first text match, and the second one is what is left without all that is
between them. -/
inductive Outside : List Char → List Char → Prop
  | nil : Outside [] []
  | char {c : Char} {text outer : List Char} (plain : isBracket c = false) :
      Outside text outer → Outside (c :: text) (c :: outer)
  | group {left right : Char} {inner within rest outer : List Char}
      (pair : (left, right) ∈ [('(', ')'), ('[', ']')]) : Outside inner within →
        Outside rest outer → Outside (left :: (inner ++ right :: rest)) (left :: right :: outer)

theorem not_isBracket_of_free {text : List Char} (free : ∀ c ∈ ['(', ')', '[', ']'], c ∉ text) :
    ∀ c ∈ text, isBracket c = false := by
  intro c own
  by_contra bracket
  rw [Bool.not_eq_false, isBracket, List.contains_iff_mem] at bracket
  exact free c bracket own

namespace Outside

variable {text outer text' outer' : List Char}

theorem append (h : Outside text outer) (h' : Outside text' outer') :
    Outside (text ++ text') (outer ++ outer') := by
  induction h with
  | nil => exact h'
  | char plain _ ih => exact .char plain ih
  | group pair inner _ _ ih =>
    rw [List.cons_append, List.append_assoc]
    exact .group pair inner ih

theorem of_plain (plain : ∀ c ∈ text, isBracket c = false) : Outside text text := by
  induction text with
  | nil => exact .nil
  | cons c rest ih =>
    obtain ⟨first, others⟩ := List.forall_mem_cons.mp plain
    exact .char first (ih others)

theorem parenthesis (h : Outside text outer) : Outside ('(' :: (text ++ [')'])) ['(', ')'] :=
  .group List.mem_cons_self h .nil

/-- What begins without brackets does so outside of them. -/
theorem exists_of_append (h : Outside (text ++ text') outer)
    (plain : ∀ c ∈ text, isBracket c = false) : ∃ rest, outer = text ++ rest := by
  induction text generalizing outer with
  | nil => exact ⟨outer, rfl⟩
  | cons c text ih =>
    obtain ⟨first, others⟩ := List.forall_mem_cons.mp plain
    generalize whole : c :: text ++ text' = chars at h
    cases h with
    | nil => cases whole
    | char _ h =>
      cases whole
      obtain ⟨rest, rfl⟩ := ih h others
      exact ⟨rest, rfl⟩
    | group pair =>
      obtain ⟨rfl, -⟩ := List.cons.inj whole
      simp only [List.mem_cons, Prod.mk.injEq, List.not_mem_nil, or_false] at pair
      obtain ⟨rfl, -⟩ | ⟨rfl, -⟩ := pair <;> cases first

end Outside

/-! ## Elements of lists -/

/-- How deep in brackets a text is behind a character. -/
def depthBehind (depth : Nat) (c : Char) : Nat :=
  if "([".toList.contains c then depth + 1 else if ")]".toList.contains c then depth - 1 else depth

/-- The parts of a text between the commas outside of all brackets, if it begins so deep in
brackets. -/
def parts : Nat → List Char → List (List Char)
  | _, [] => [[]]
  | depth, c :: rest =>
    if c = ',' ∧ depth = 0 then [] :: parts depth rest
    else (parts (depthBehind depth c) rest).modifyHead (c :: ·)

/-- The elements of a list. Blanks before an element are no part of it. -/
def elements (list : List Char) : List (List Char) :=
  ((parts 0 list).map fun part => part.dropWhile (· = ' ')).filter (· ≠ [])

/-- A text that can be an element: its brackets match, commas are inside of them only, and no blank
comes first. -/
structure IsElementText (text : List Char) : Prop where
  outside : ∃ outer, Outside text outer ∧ ',' ∉ outer
  begins : ∃ c rest, text = c :: rest ∧ c ≠ ' '

theorem parts_append {text outer : List Char} (h : Outside text outer) {depth : Nat}
    (free : 0 < depth ∨ ',' ∉ outer) (rest : List Char) :
    parts depth (text ++ rest) = (parts depth rest).modifyHead (text ++ ·) := by
  induction h generalizing depth rest with
  | nil => exact (congrFun List.modifyHead_id _).symm
  | @char c text outer plain _ ih =>
    have noComma : ¬ (c = ',' ∧ depth = 0) := by
      rintro ⟨rfl, rfl⟩
      simp at free
    have stays : depthBehind depth c = depth := by
      unfold depthBehind
      unfold isBracket at plain
      simp_all
    rw [List.cons_append, parts, if_neg noComma, stays,
      ih (free.imp_right fun free inside => free (List.mem_cons_of_mem c inside)),
      List.modifyHead_modifyHead]
    rfl
  | @group left right inner within text outer pair _ _ ihInner ih =>
    have free : 0 < depth ∨ ',' ∉ outer :=
      free.imp_right fun free inside => free (by simp [inside])
    have brackets : left ≠ ',' ∧ right ≠ ',' ∧ depthBehind depth left = depth + 1 ∧
        depthBehind (depth + 1) right = depth := by
      simp only [List.mem_cons, Prod.mk.injEq, List.not_mem_nil, or_false] at pair
      obtain ⟨rfl, rfl⟩ | ⟨rfl, rfl⟩ := pair <;> simp [depthBehind]
    obtain ⟨plain, plain', deeper, back⟩ := brackets
    rw [List.cons_append, List.append_assoc, List.cons_append, parts,
      if_neg fun both => plain both.1, deeper, ihInner (.inl (Nat.succ_pos depth)), parts,
      if_neg fun both => plain' both.1, back, ih free]
    simp only [List.modifyHead_modifyHead]
    congr 1
    funext part
    simp

theorem parts_intercalate {text : List Char} {rest : List (List Char)}
    (each : ∀ t ∈ text :: rest, IsElementText t) :
    parts 0 ([',', ' '].intercalate (text :: rest)) = text :: rest.map (' ' :: ·) := by
  obtain ⟨first, others⟩ := List.forall_mem_cons.mp each
  obtain ⟨outer, outside, free⟩ := first.outside
  induction rest generalizing text outer with
  | nil =>
    rw [List.intercalate_singleton, ← List.append_nil text, parts_append outside (.inr free)]
    simp [parts]
  | cons next rest ih =>
    obtain ⟨second, others'⟩ := List.forall_mem_cons.mp others
    obtain ⟨outer', outside', free'⟩ := second.outside
    rw [List.intercalate_cons_cons, List.append_assoc, parts_append outside (.inr free)]
    simp [parts, depthBehind, ih others second others' outer' outside' free']

/-- **The elements of a list are those that were put into it.** -/
theorem elements_intercalate {texts : List (List Char)} (each : ∀ t ∈ texts, IsElementText t) :
    elements ([',', ' '].intercalate texts) = texts := by
  have alone {t : List Char} (h : IsElementText t) :
      t.dropWhile (· = ' ') = t ∧ (' ' :: t).dropWhile (· = ' ') = t ∧ t ≠ [] := by
    obtain ⟨c, rest, rfl, noBlank⟩ := h.begins
    simp [noBlank]
  cases texts with
  | nil => rfl
  | cons text rest =>
    obtain ⟨first, others⟩ := List.forall_mem_cons.mp each
    have trimmed : rest.map (fun t => (' ' :: t).dropWhile (· = ' ')) = rest :=
      (List.map_congr_left fun t h => (alone (others t h)).2.1).trans (List.map_id rest)
    rw [elements, parts_intercalate each, List.map_cons, List.map_map, (alone first).1]
    refine (congrArg _ (congrArg _ trimmed)).trans (List.filter_eq_self.mpr fun t h => ?_)
    simpa using (alone (each t h)).2.2

end CircuitGrid
