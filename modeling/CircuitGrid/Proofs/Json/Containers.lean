import CircuitGrid.Proofs.Json.Values

/-!
# Written lists and records are read back

A list is read item by item. A record is read member by member, in the order in which it was
written; every member fills one field that was free before. Blanks are passed over where a step
starts, so that it does not matter with which of them the value was written.

* `Reads.list`, `Reads.pair`: lists;
* `Record.Takes`, `Record.Gives`: what members make of a record;
* **`Reads.record`**: a written record is read back.
-/

namespace CircuitGrid

open Reader

variable {α β δ ε τ : Type}

/-! ## Lists -/

namespace Reader

theorem anotherItem_close (first : Bool) (rest : List Char) :
    anotherItem first (']' :: rest) = .ok (false, ']' :: rest) := by
  rw [anotherItem, bind_of_ok (peek_cons rfl)]
  rfl

/-- An item follows, behind a comma and blanks. -/
theorem anotherItem_writes (first : Bool) {j : Json} {blank text : List Char}
    (isBlank : Json.Blank blank) (writes : j.Writes text) (rest : List Char) :
    anotherItem first (Json.comma first ++ (blank ++ (text ++ rest))) =
      .ok (true, text ++ rest) := by
  obtain ⟨c, tail, rfl, visible, -, bracket, -, -⟩ := writes.starts
  cases first with
  | true =>
    refine ((Skips.peek.bind _) blank _ isBlank).trans ?_
    rw [List.cons_append, bind_of_ok (peek_cons visible)]
    dsimp only
    rw [if_neg bracket]
    rfl
  | false =>
    refine (bind_of_ok (peek_cons rfl)).trans ?_
    show (advance >>= _ : Reader Bool) _ = _
    rw [bind_of_ok (advance_cons _)]
    refine ((Skips.peek.bind _) blank _ isBlank).trans ?_
    rw [List.cons_append, bind_of_ok (peek_cons visible)]
    dsimp only
    rw [if_neg bracket]
    rfl

theorem close_cons {c : Char} (h : isBlank c = false) (rest : List Char) :
    close c (c :: rest) = .ok ((), rest) := by
  rw [close, bind_of_ok (peek_cons h)]
  dsimp only
  rw [if_pos rfl]
  rfl

theorem get_eq (s : List Char) : (get : Reader (List Char)) s = .ok (s, s) := rfl

theorem enter_succ (depth : Nat) (c : Char) (rest : List Char) :
    enter (depth + 1) (c :: rest) = .ok (depth, rest) := rfl

end Reader

theorem Json.WritesItems.ends {items : List Json} {text : List Char}
    (writes : WritesItems false items text) (rest : List Char) : Ends (text ++ ']' :: rest) := by
  cases writes with
  | nil isBlank => exact isBlank.ends (.cons (by decide))
  | cons => exact Ends.cons (by decide)

theorem Json.WritesItems.length_le {first : Bool} {items : List Json} {text : List Char}
    (writes : WritesItems first items text) : items.length ≤ text.length := by
  induction items generalizing first text with
  | nil => exact Nat.zero_le _
  | cons item rest ih =>
    cases writes with
    | cons isBlank item rest =>
      obtain ⟨c, tail, rfl, -⟩ := item.starts
      have behind := ih rest
      simp only [List.length_append, List.length_cons]
      omega

section list

variable {item : Reader α} {depth : Nat} {write : α → Json} {fits : α → Prop}

/-- The items of a list are read back up to its end. -/
theorem Reads.items {xs : List α} (each : ∀ x ∈ xs, Reads item depth (write x) x (fits x))
    {fuel : Nat} (enough : xs.length < fuel) {first : Bool} {text : List Char}
    (writes : Json.WritesItems first (xs.map write) text) (rest : List Char) :
    Yields (Reader.items item fuel first) (text ++ ']' :: rest) xs (']' :: rest)
      (∀ x ∈ xs, (write x).depth ≤ depth ∧ fits x) := by
  induction xs generalizing fuel first text with
  | nil =>
    obtain ⟨fuel, rfl⟩ : ∃ n, fuel = n + 1 := ⟨fuel - 1, by simp at enough; omega⟩
    cases writes with
    | nil isBlank =>
      have skips : Skips (Reader.items item (fuel + 1) first) := (Skips.peek.bind _).bind _
      refine skips.yields isBlank ((Yields.of_ok ?_).congr (by simp))
      rw [Reader.items, bind_of_ok (anotherItem_close first rest)]
      rfl
  | cons x xs ih =>
    obtain ⟨fuel, rfl⟩ : ∃ n, fuel = n + 1 := ⟨fuel - 1, by simp at enough; omega⟩
    cases writes with
    | @cons _ _ _ blank text after isBlank here behind =>
      have head := each x List.mem_cons_self text here [] .nil _ (behind.ends rest)
      have tail := ih (fun y inside => each y (List.mem_cons_of_mem _ inside))
        (by simpa using enough) behind
      simp only [List.append_assoc]
      refine Yields.after (anotherItem_writes first isBlank here _) ?_
      rw [if_pos rfl]
      refine (head.bind (tail.map (g := (x :: ·)))).congr ?_
      rw [List.forall_mem_cons]

/-- **A written list is read back** if its items are. -/
theorem Reads.list {item : Nat → Reader α} {xs : List α}
    (each : ∀ inner, depth = inner + 1 →
      ∀ x ∈ xs, Reads (item inner) inner (write x) x (fits x)) :
    Reads (Reader.list depth item) depth (.list (xs.map write)) xs (∀ x ∈ xs, fits x) := by
  intro text writes blank isBlank rest ends
  refine (Skips.peek.bind _).yields isBlank ?_
  obtain ⟨text, inside, rfl⟩ := writes.of_list
  rw [List.cons_append, List.append_assoc]
  cases depth with
  | zero =>
    refine ⟨fun fit => absurd fit.1 (by simp [Json.depth]), fun _ => ⟨.malformed, ?_⟩⟩
    rw [bind_of_ok (peek_cons rfl)]
    rfl
  | succ inner =>
    have enough : xs.length < (text ++ ']' :: rest).length + 1 := by
      have short := inside.length_le
      rw [List.length_map] at short
      rw [List.length_append]
      omega
    have found := Reads.items (each inner rfl) enough inside rest
    refine .after (peek_cons rfl) ?_
    dsimp only
    rw [if_pos rfl]
    refine .after (enter_succ inner '[' _) (.after (get_eq _) ?_)
    refine (found.bind (.of_ok ?_)).congr ?_
    · rw [bind_of_ok (close_cons rfl rest)]
      rfl
    · rw [Json.depth_list_le_iff, List.forall_mem_map, and_true, ← forall₂_and]

/-- **A written pair is read back** if its two items are. -/
theorem Reads.pair {item : Nat → Reader α} {j j' : Json} {a a' : α} {fits fits' : Prop}
    (first : ∀ inner, depth = inner + 1 → Reads (item inner) inner j a fits)
    (second : ∀ inner, depth = inner + 1 → Reads (item inner) inner j' a' fits') :
    Reads (Reader.pair depth item) depth (.list [j, j']) (a, a') (fits ∧ fits') := by
  intro text writes blank isBlank rest ends
  refine (Skips.peek.bind _).yields isBlank ?_
  obtain ⟨text, inside, rfl⟩ := writes.of_list
  rw [List.cons_append, List.append_assoc]
  cases depth with
  | zero =>
    refine ⟨fun fit => absurd fit.1 (by simp [Json.depth]), fun _ => ⟨.malformed, ?_⟩⟩
    rw [bind_of_ok (peek_cons rfl)]
    rfl
  | succ inner =>
    cases inside with
    | @cons _ _ _ before text after isBlank here behind =>
      have ended := behind.ends rest
      cases behind with
      | @cons _ _ _ before' text' after' isBlank' here' behind =>
        have ended' := behind.ends rest
        cases behind with
        | nil closes =>
          simp only [List.append_assoc] at ended ⊢
          refine .after (peek_cons rfl) ?_
          dsimp only
          rw [if_pos rfl]
          refine .after (enter_succ inner '[' _)
            (.after (anotherItem_writes true isBlank here _) ?_)
          refine .congr (.bind (first inner rfl _ here [] .nil _ ended) (.after
            (anotherItem_writes false isBlank' here' _) (.bind
            (second inner rfl _ here' [] .nil _ ended') (.of_ok ?_)))) ?_
          · refine ((Skips.peek.bind _).bind _ _ _ closes).trans ?_
            show (close ']' >>= _ : Reader (α × α)) (']' :: rest) = _
            rw [bind_of_ok (close_cons rfl rest)]
            rfl
          · rw [Json.depth_list_le_iff]
            simp only [List.forall_mem_cons, List.not_mem_nil, false_imp_iff, implies_true, and_true]
            tauto

end list

/-! ## Members -/

namespace Reader

theorem anotherKey_close (first : Bool) (rest : List Char) :
    anotherKey first ('\x7d' :: rest) = .ok (false, '\x7d' :: rest) := by
  rw [anotherKey, bind_of_ok (peek_cons rfl)]
  rfl

/-- A key follows, behind a comma and blanks. -/
theorem anotherKey_quoted (first : Bool) (key : String) {blank : List Char}
    (isBlank : Json.Blank blank) (rest : List Char) :
    anotherKey first (Json.comma first ++ (blank ++ ((Json.quoted key).toList ++ rest))) =
      .ok (true, (Json.quoted key).toList ++ rest) := by
  rw [toList_quoted, List.cons_append]
  cases first with
  | true =>
    refine ((Skips.peek.bind _) blank _ isBlank).trans ?_
    rw [bind_of_ok (peek_cons rfl)]
    rfl
  | false =>
    refine (bind_of_ok (peek_cons rfl)).trans ?_
    show (advance >>= _ : Reader Bool) _ = _
    rw [bind_of_ok (advance_cons _)]
    refine ((Skips.peek.bind _) blank _ isBlank).trans ?_
    rw [bind_of_ok (peek_cons rfl)]
    rfl

theorem colon_cons (rest : List Char) : colon (':' :: rest) = .ok ((), rest) := by
  rw [colon, bind_of_ok (peek_cons rfl)]
  rfl

end Reader

theorem Json.WritesMembers.ends {members : List (String × Json)} {text : List Char}
    (writes : WritesMembers false members text) (rest : List Char) :
    Ends (text ++ '\x7d' :: rest) := by
  cases writes with
  | nil isBlank => exact isBlank.ends (.cons (by decide))
  | cons => exact Ends.cons (by decide)

theorem Json.WritesMembers.length_le {first : Bool} {members : List (String × Json)}
    {text : List Char} (writes : WritesMembers first members text) :
    members.length ≤ text.length := by
  induction members generalizing first text with
  | nil => exact Nat.zero_le _
  | cons member rest ih =>
    cases writes with
    | cons isBlank isBlank' value rest =>
      have behind := ih rest
      simp only [List.length_append, List.length_cons]
      omega

namespace Record

/-! ## Records -/

/-- A member fills a field that was free. -/
def Takes (shape : Record δ) (depth : Nat) (key : String) (j : Json) (before after : δ)
    (fits : Prop) : Prop :=
  ∃ field, shape.fields.find? (·.key == key) = some field ∧ field.filled before = false ∧
    Reads (field.fill before) depth j after fits

section takes

variable {first : Record δ} {second : Record ε} {depth : Nat} {key : String} {j : Json}
  {fits : Prop}

theorem Takes.one {r : Reader τ} {a : τ} (h : Reads r depth j a fits) :
    (one key r).Takes depth key j none (some a) fits := by
  refine ⟨_, List.find?_cons_of_pos (by simp), rfl, h.map some⟩

theorem Takes.left {d d' : δ} (h : first.Takes depth key j d d' fits) (e : ε) :
    (first.and second).Takes depth key j (d, e) (d', e) fits := by
  obtain ⟨field, found, free, reads⟩ := h
  refine ⟨⟨field.key, fun p => field.filled p.1, fun p => do return (← field.fill p.1, p.2)⟩, ?_,
    free, reads.map (·, e)⟩
  rw [and, List.find?_append, List.find?_map]
  show (Option.map _ (first.fields.find? (·.key == key))).or _ = _
  rw [found]
  rfl

theorem Takes.right {key' : String} {r : Reader τ} {e e' : ε}
    (h : second.Takes depth key j e e' fits) (d : Option τ) (other : key' ≠ key := by decide) :
    ((Record.one key' r).and second).Takes depth key j (d, e) (d, e') fits := by
  obtain ⟨field, found, free, reads⟩ := h
  refine ⟨⟨field.key, fun p => field.filled p.2, fun p => do return (p.1, ← field.fill p.2)⟩, ?_,
    free, reads.map (d, ·)⟩
  rw [and, List.find?_append, List.find?_map, List.find?_map]
  have skipped : (Record.one key' r).fields.find? (·.key == key) = none := by
    simp [Record.one, other]
  show (Option.map _ ((Record.one key' r).fields.find? (·.key == key))).or
    (Option.map _ (second.fields.find? (·.key == key))) = _
  rw [skipped, found]
  rfl

end takes

/-- What members make of a record, and when all of them fit. -/
inductive Gives (shape : Record δ) (depth : Nat) :
    δ → List (String × Json) → δ → Prop → Prop
  | nil (d : δ) : Gives shape depth d [] d True
  | cons {key : String} {j : Json} {members : List (String × Json)} {d d' d'' : δ}
      {fits fits' : Prop} :
      shape.Takes depth key j d d' fits → Gives shape depth d' members d'' fits' →
        Gives shape depth d ((key, j) :: members) d'' (fits ∧ fits')

namespace Gives

variable {shape : Record δ} {depth : Nat} {members members' : List (String × Json)}
  {d d' d'' : δ} {fits fits' : Prop}

theorem congr (h : shape.Gives depth d members d' fits) (same : fits ↔ fits') :
    shape.Gives depth d members d' fits' := propext same ▸ h

theorem one {key : String} {j : Json} (h : shape.Takes depth key j d d' fits) :
    shape.Gives depth d [(key, j)] d' fits :=
  (cons h (nil d')).congr (and_iff_left trivial)

theorem append (h : shape.Gives depth d members d' fits)
    (h' : shape.Gives depth d' members' d'' fits') :
    shape.Gives depth d (members ++ members') d'' (fits ∧ fits') := by
  induction h with
  | nil d => exact h'.congr (and_iff_right trivial).symm
  | cons takes more ih => exact (cons takes (ih h')).congr and_assoc.symm

/-- A member that is left out when it has no value. -/
theorem optional {key : String} {write : β → Json} {value : Option β}
    (put : Option (Option β) → δ) {fits : β → Prop}
    (h : ∀ b, value = some b → shape.Takes depth key (write b) (put none) (put (some (some b)))
      (fits b)) :
    shape.Gives depth (put none) (Json.optional key write value) (put (value.map some))
      (∀ b ∈ value, fits b) := by
  cases value with
  | none => exact (nil (put none)).congr (by simp)
  | some b => exact (one (h b rfl)).congr (by simp)

/-- A member that is left out when its list is empty. -/
theorem nonempty {key : String} {write : β → Json} {items : List β}
    (put : Option (List β) → δ)
    (h : shape.Takes depth key (.list (items.map write)) (put none) (put (some items)) fits) :
    shape.Gives depth (put none) (Json.nonempty key write items)
      (put (if items = [] then none else some items)) (items = [] ∨ fits) := by
  cases items with
  | nil => exact (nil (put none)).congr (by simp)
  | cons item rest => exact (one h).congr (by simp)

/-- Members are read back up to the end of their object. -/
theorem read (h : shape.Gives depth d members d' fits) {fuel : Nat} (enough : members.length < fuel)
    {first : Bool} {text : List Char} (writes : Json.WritesMembers first members text)
    (rest : List Char) :
    Yields (Reader.members shape.fields fuel first d) (text ++ '\x7d' :: rest)
      d' ('\x7d' :: rest) ((∀ m ∈ members, m.2.depth ≤ depth) ∧ fits) := by
  induction h generalizing fuel first text with
  | nil d =>
    obtain ⟨fuel, rfl⟩ : ∃ n, fuel = n + 1 := ⟨fuel - 1, by simp at enough; omega⟩
    cases writes with
    | nil isBlank =>
      have skips : Skips (Reader.members shape.fields (fuel + 1) first d) :=
        (Skips.peek.bind _).bind _
      refine skips.yields isBlank ((Yields.of_ok ?_).congr (by simp))
      rw [Reader.members, bind_of_ok (anotherKey_close first rest)]
      rfl
  | @cons key j members d d' d'' fits fits' takes more ih =>
    obtain ⟨fuel, rfl⟩ : ∃ n, fuel = n + 1 := ⟨fuel - 1, by simp at enough; omega⟩
    obtain ⟨field, found, free, reads⟩ := takes
    cases writes with
    | @cons _ _ _ _ blank between text after isBlank isBlank' here behind =>
      have head := reads text here between isBlank' _ (behind.ends rest)
      have tail := ih (by simpa using enough) behind
      simp only [List.append_assoc, List.cons_append]
      refine Yields.after (anotherKey_quoted first key isBlank _) ?_
      rw [if_pos rfl]
      refine Yields.after (text_quoted key _) ?_
      rw [found]
      dsimp only
      rw [free]
      refine Yields.after (colon_cons _) ?_
      refine (head.bind tail).congr ?_
      rw [List.forall_mem_cons]
      tauto

end Gives

end Record

/-- **A written record is read back** if its members fill its fields. -/
theorem Reads.record {depth : Nat} {shape : Nat → Record δ} {complete : δ → Option α}
    {members : List (String × Json)} {d : δ} {a : α} {fits : Prop}
    (h : ∀ inner, depth = inner + 1 → (shape inner).Gives inner (shape inner).blank members d fits)
    (complete_eq : complete d = some a) :
    Reads (Reader.record depth shape complete) depth (.object members) a fits := by
  intro text writes blank isBlank rest ends
  refine (Skips.peek.bind _).yields isBlank ?_
  obtain ⟨text, inside, rfl⟩ := writes.of_object
  rw [List.cons_append, List.append_assoc]
  cases depth with
  | zero =>
    refine ⟨fun fit => absurd fit.1 (by simp [Json.depth]), fun _ => ⟨.malformed, ?_⟩⟩
    rw [bind_of_ok (peek_cons rfl)]
    rfl
  | succ inner =>
    have enough : members.length < (text ++ '\x7d' :: rest).length + 1 := by
      have short := inside.length_le
      rw [List.length_append]
      omega
    have found := (h inner rfl).read enough inside rest
    refine .after (peek_cons rfl) ?_
    dsimp only
    rw [if_neg (by decide), if_pos rfl]
    refine .after (enter_succ inner '\x7b' _) (.after (get_eq _) ?_)
    refine (found.bind (.of_ok ?_)).congr ?_
    · rw [bind_of_ok (close_cons rfl rest)]
      rw [bind_of_ok (show (pure d : Reader δ) rest = .ok (d, rest) from rfl), complete_eq]
      rfl
    · rw [Json.depth_object_le_iff, and_true]

end CircuitGrid
