import CircuitGrid.Json.Record
import CircuitGrid.Proofs.Json.Numbers

/-!
# Written values are read back

A value is read back if its containers are not nested too deeply and its numbers fit into their
words; otherwise it is refused. What holds of a list or a record is put together from its parts.

* `Json.depth`: how deeply containers are nested;
* `Json.Writes`: the texts of a value, with any blanks between its tokens;
* **`Json.writes_compact`**, **`Json.writes_prettyAt`**: the two texts that are written;
* `Reads`: a value is read back whenever it fits, and refused otherwise;
* `Reads.list`, `Reads.pair`, `Reads.optional`, `Reads.choice`: the kinds of values.
-/

namespace CircuitGrid

namespace Json

/-! ## Nesting -/

mutual

/-- How many containers of a value stand inside one another. -/
def depth : Json → Nat
  | .null => 0
  | .bool _ => 0
  | .nat _ => 0
  | .float _ => 0
  | .text _ => 0
  | .list items => depthOfItems items + 1
  | .object members => depthOfMembers members + 1

/-- The depth of the deepest item. -/
def depthOfItems : List Json → Nat
  | [] => 0
  | item :: rest => max item.depth (depthOfItems rest)

/-- The depth of the deepest member. -/
def depthOfMembers : List (String × Json) → Nat
  | [] => 0
  | (_, value) :: rest => max value.depth (depthOfMembers rest)

end

theorem depth_list_le_iff {items : List Json} {d : Nat} :
    (Json.list items).depth ≤ d + 1 ↔ ∀ j ∈ items, j.depth ≤ d := by
  rw [depth, Nat.add_le_add_iff_right]
  induction items with
  | nil => simp [depthOfItems]
  | cons item rest ih =>
    rw [depthOfItems, Nat.max_le, ih, List.forall_mem_cons]

theorem depth_object_le_iff {members : List (String × Json)} {d : Nat} :
    (Json.object members).depth ≤ d + 1 ↔ ∀ m ∈ members, m.2.depth ≤ d := by
  rw [depth, Nat.add_le_add_iff_right]
  induction members with
  | nil => simp [depthOfMembers]
  | cons member rest ih =>
    obtain ⟨key, value⟩ := member
    rw [depthOfMembers, Nat.max_le, ih, List.forall_mem_cons]

/-- What holds of values without items, and of containers when it holds of what they contain. -/
theorem nesting_induction {P : Json → Prop} (flat : ∀ j, j.depth = 0 → P j)
    (list : ∀ items, (∀ j ∈ items, P j) → P (.list items))
    (object : ∀ members : List (String × Json), (∀ m ∈ members, P m.2) → P (.object members))
    (j : Json) : P j := by
  have within : ∀ d j, depth j ≤ d → P j := by
    intro d
    induction d with
    | zero => exact fun j shallow => flat j (Nat.le_zero.mp shallow)
    | succ d ih =>
      intro j shallow
      cases j with
      | list items => exact list items fun j inside => ih j (depth_list_le_iff.mp shallow j inside)
      | object members =>
        exact object members fun m inside => ih m.2 (depth_object_le_iff.mp shallow m inside)
      | _ => exact flat _ rfl
  exact within j.depth j (Nat.le_refl _)

/-! ## Texts -/

/-- Blanks as they stand between tokens. -/
def Blank (s : List Char) : Prop := ∀ c ∈ s, Reader.isBlank c

theorem Blank.nil : Blank [] := nofun

theorem Blank.ends {blank rest : List Char} (isBlank : Blank blank) (ends : Ends rest) :
    Ends (blank ++ rest) := by
  cases blank with
  | nil => exact ends
  | cons c tail => exact .cons (.inr (.inr (.inr (isBlank c List.mem_cons_self))))

/-- What separates an item of a list or a member of an object from what stands before it. -/
def comma (first : Bool) : List Char := if first then [] else [',']

mutual

/-- The text writes the value, with any blanks behind opening brackets, commas and colons and before
closing brackets. -/
inductive Writes : Json → List Char → Prop
  | leaf {j : Json} (flat : j.depth = 0) : Writes j j.compact.toList
  | list {items : List Json} {text : List Char} :
      WritesItems true items text → Writes (.list items) ('[' :: (text ++ [']']))
  | object {members : List (String × Json)} {text : List Char} :
      WritesMembers true members text → Writes (.object members) ('\x7b' :: (text ++ ['\x7d']))

/-- The text writes the items of a list, behind its first one if they do not start it. -/
inductive WritesItems : Bool → List Json → List Char → Prop
  | nil {first : Bool} {blank : List Char} : Blank blank → WritesItems first [] blank
  | cons {first : Bool} {item : Json} {rest : List Json} {blank text after : List Char} :
      Blank blank → Writes item text → WritesItems false rest after →
        WritesItems first (item :: rest) (comma first ++ (blank ++ (text ++ after)))

/-- The text writes the members of an object, behind its first one if they do not start it. -/
inductive WritesMembers : Bool → List (String × Json) → List Char → Prop
  | nil {first : Bool} {blank : List Char} : Blank blank → WritesMembers first [] blank
  | cons {first : Bool} {key : String} {value : Json} {rest : List (String × Json)}
      {blank blank' text after : List Char} :
      Blank blank → Blank blank' → Writes value text → WritesMembers false rest after →
        WritesMembers first ((key, value) :: rest)
          (comma first ++ (blank ++ ((quoted key).toList ++ ':' :: (blank' ++ (text ++ after)))))

end

/-- What the text of a value starts with, as far as it matters to what reads it. -/
theorem compact_starts (j : Json) : ∃ c tail, j.compact.toList = c :: tail ∧
    Reader.isBlank c = false ∧ c ≠ ',' ∧ c ≠ ']' ∧ c ≠ '\x7d' ∧
    (c = 'n' → j = .null ∨ ∃ x, j = .float x) := by
  have number : ∀ c : Char, (c = '-' ∨ c.isDigit) →
      Reader.isBlank c = false ∧ c ≠ ',' ∧ c ≠ ']' ∧ c ≠ '\x7d' ∧ c ≠ 'n' := by
    rintro c (rfl | digit)
    · decide
    · refine ⟨?_, ?_, ?_, ?_, ?_⟩
      · exact Reader.not_isBlank_of_isDigit digit
      all_goals rintro rfl; cases digit
  cases j with
  | null => exact ⟨'n', _, rfl, rfl, by decide, by decide, by decide, fun _ => .inl rfl⟩
  | bool b =>
    cases b with
    | true => exact ⟨'t', _, rfl, rfl, by decide, by decide, by decide, by simp⟩
    | false => exact ⟨'f', _, rfl, rfl, by decide, by decide, by decide, by simp⟩
  | nat n =>
    cases digits : Nat.toDigits 10 n with
    | nil => exact absurd digits Nat.toDigits_ne_nil
    | cons c tail =>
      have digit : c.isDigit :=
        Reader.isDigit_of_mem_toDigits (by rw [digits]; exact List.mem_cons_self)
      obtain ⟨blank, comma, bracket, brace, n_ne⟩ := number c (.inr digit)
      refine ⟨c, tail, ?_, blank, comma, bracket, brace, fun same => absurd same n_ne⟩
      rw [compact, Nat.toString_eq_repr, Nat.toList_repr, digits]
  | float x =>
    rw [compact, ofFloat]
    split
    · obtain ⟨c, tail, text, start⟩ := natural_starts x
      obtain ⟨blank, comma, bracket, brace, n_ne⟩ := number c start
      exact ⟨c, tail, text, blank, comma, bracket, brace, fun same => absurd same n_ne⟩
    · exact ⟨'n', _, rfl, rfl, by decide, by decide, by decide, fun _ => .inr ⟨x, rfl⟩⟩
  | text s =>
    rw [compact, Reader.toList_quoted]
    exact ⟨'"', _, rfl, rfl, by decide, by decide, by decide, by simp⟩
  | list items =>
    rw [compact, String.append_assoc, String.toList_append]
    exact ⟨'[', _, rfl, rfl, by decide, by decide, by decide, by simp⟩
  | object members =>
    rw [compact, String.append_assoc, String.toList_append]
    exact ⟨'\x7b', _, rfl, rfl, by decide, by decide, by decide, by simp⟩

theorem Writes.starts {j : Json} {text : List Char} (writes : j.Writes text) :
    ∃ c tail, text = c :: tail ∧ Reader.isBlank c = false ∧ c ≠ ',' ∧ c ≠ ']' ∧ c ≠ '\x7d' ∧
      (c = 'n' → j = .null ∨ ∃ x, j = .float x) := by
  cases writes with
  | leaf => exact j.compact_starts
  | list => exact ⟨'[', _, rfl, rfl, by decide, by decide, by decide, by simp⟩
  | object => exact ⟨'\x7b', _, rfl, rfl, by decide, by decide, by decide, by simp⟩

theorem Writes.of_list {items : List Json} {text : List Char}
    (writes : (Json.list items).Writes text) :
    ∃ inner, WritesItems true items inner ∧ text = '[' :: (inner ++ [']']) := by
  cases writes with
  | leaf flat => exact absurd flat (Nat.succ_ne_zero _)
  | list inner => exact ⟨_, inner, rfl⟩

theorem Writes.of_object {members : List (String × Json)} {text : List Char}
    (writes : (Json.object members).Writes text) :
    ∃ inner, WritesMembers true members inner ∧ text = '\x7b' :: (inner ++ ['\x7d']) := by
  cases writes with
  | leaf flat => exact absurd flat (Nat.succ_ne_zero _)
  | object inner => exact ⟨_, inner, rfl⟩

/-- What is no container is written in one way. -/
theorem Writes.eq_compact {j : Json} {text : List Char} (writes : j.Writes text)
    (flat : j.depth = 0) : text = j.compact.toList := by
  cases writes with
  | leaf => rfl
  | list => exact absurd flat (Nat.succ_ne_zero _)
  | object => exact absurd flat (Nat.succ_ne_zero _)

/-! ## The two texts of a value -/

section layout

variable (blank between : List Char) (write : Json → List Char)

/-- The items behind the first one of a list, with the same blanks before each. -/
def itemsAfter (items : List Json) : List Char :=
  items.flatMap fun j => ',' :: (blank ++ write j)

/-- The members behind the first one of an object, with the same blanks before each key and each
value. -/
def membersAfter (members : List (String × Json)) : List Char :=
  members.flatMap fun (key, value) =>
    ',' :: (blank ++ ((quoted key).toList ++ ':' :: (between ++ write value)))

variable {blank between write} {close : List Char} (isBlank : Blank blank)
  (isBlank' : Blank between) (closes : Blank close)

include isBlank closes in
theorem writesItems_after {items : List Json} (each : ∀ j ∈ items, j.Writes (write j)) :
    WritesItems false items (itemsAfter blank write items ++ close) := by
  induction items with
  | nil => exact .nil closes
  | cons item rest ih =>
    have text : itemsAfter blank write (item :: rest) ++ close =
        comma false ++ (blank ++ (write item ++ (itemsAfter blank write rest ++ close))) := by
      simp [itemsAfter, comma]
    rw [text]
    exact .cons isBlank (each item List.mem_cons_self)
      (ih fun j inside => each j (List.mem_cons_of_mem _ inside))

include isBlank isBlank' closes in
theorem writesMembers_after {members : List (String × Json)}
    (each : ∀ m ∈ members, m.2.Writes (write m.2)) :
    WritesMembers false members (membersAfter blank between write members ++ close) := by
  induction members with
  | nil => exact .nil closes
  | cons member rest ih =>
    obtain ⟨key, value⟩ := member
    have text : membersAfter blank between write ((key, value) :: rest) ++ close =
        comma false ++ (blank ++ ((quoted key).toList ++ ':' :: (between ++ (write value ++
          (membersAfter blank between write rest ++ close))))) := by
      simp [membersAfter, comma]
    rw [text]
    exact .cons isBlank isBlank' (each _ List.mem_cons_self)
      (ih fun m inside => each m (List.mem_cons_of_mem _ inside))

end layout

theorem toList_compactItems (item : Json) (rest : List Json) :
    (compactItems (item :: rest)).toList =
      item.compact.toList ++ itemsAfter [] (fun j => j.compact.toList) rest := by
  induction rest generalizing item with
  | nil => simp [compactItems, itemsAfter]
  | cons next rest ih =>
    rw [compactItems, String.toList_append, String.toList_append, ih, itemsAfter, itemsAfter,
      List.flatMap_cons]
    · simp
    · nofun

theorem toList_compactMembers (key : String) (value : Json) (rest : List (String × Json)) :
    (compactMembers ((key, value) :: rest)).toList = (quoted key).toList ++
      ':' :: (value.compact.toList ++ membersAfter [] [] (fun j => j.compact.toList) rest) := by
  induction rest generalizing key value with
  | nil => simp [compactMembers, membersAfter]
  | cons next rest ih =>
    obtain ⟨key', value'⟩ := next
    rw [compactMembers, String.toList_append, String.toList_append, ih, membersAfter, membersAfter,
      List.flatMap_cons]
    · simp
    · nofun

/-- **The text of a value without blanks writes it.** -/
theorem writes_compact (j : Json) : j.Writes j.compact.toList := by
  induction j using nesting_induction with
  | flat j flat => exact .leaf flat
  | list items each =>
    have text : (Json.list items).compact.toList =
        '[' :: ((compactItems items).toList ++ [']']) := by simp [compact]
    rw [text]
    refine .list ?_
    cases items with
    | nil => exact .nil .nil
    | cons item rest =>
      rw [toList_compactItems]
      have after : WritesItems false rest
          (itemsAfter [] (fun j => j.compact.toList) rest ++ []) :=
        writesItems_after .nil .nil fun j inside => each j (List.mem_cons_of_mem _ inside)
      rw [List.append_nil] at after
      exact @WritesItems.cons true _ _ _ _ _ .nil (each item List.mem_cons_self) after
  | object members each =>
    have text : (Json.object members).compact.toList =
        '\x7b' :: ((compactMembers members).toList ++ ['\x7d']) := by simp [compact]
    rw [text]
    refine .object ?_
    cases members with
    | nil => exact .nil .nil
    | cons member rest =>
      obtain ⟨key, value⟩ := member
      rw [toList_compactMembers]
      have after : WritesMembers false rest
          (membersAfter [] [] (fun j => j.compact.toList) rest ++ []) :=
        writesMembers_after .nil .nil .nil fun m inside => each m (List.mem_cons_of_mem _ inside)
      rw [List.append_nil] at after
      have first : value.Writes value.compact.toList := each (key, value) List.mem_cons_self
      have written := @WritesMembers.cons true key value rest [] [] _ _ .nil .nil first after
      rwa [comma, if_pos rfl, List.nil_append, List.nil_append, List.nil_append] at written

theorem blank_indent (level : Nat) : Blank (indent level).toList := by
  intro c inside
  rw [indent, toList_pushn, List.mem_append, List.mem_replicate] at inside
  obtain newline | ⟨-, rfl⟩ := inside
  · cases List.mem_singleton.mp newline
    rfl
  · rfl

theorem toList_prettyItems (level : Nat) (item : Json) (rest : List Json) :
    (prettyItems level (item :: rest)).toList = (indent level).toList ++
      ((item.prettyAt level).toList ++
        itemsAfter (indent level).toList (fun j => (j.prettyAt level).toList) rest) := by
  induction rest generalizing item with
  | nil => simp [prettyItems, itemsAfter]
  | cons next rest ih =>
    rw [prettyItems, String.toList_append, String.toList_append, ih, itemsAfter, itemsAfter,
      List.flatMap_cons]
    · simp
    · nofun

theorem toList_prettyMembers (level : Nat) (key : String) (value : Json)
    (rest : List (String × Json)) :
    (prettyMembers level ((key, value) :: rest)).toList = (indent level).toList ++
      ((quoted key).toList ++ ':' :: ([' '] ++ ((value.prettyAt level).toList ++
        membersAfter (indent level).toList [' '] (fun j => (j.prettyAt level).toList) rest))) := by
  induction rest generalizing key value with
  | nil => simp [prettyMembers, membersAfter]
  | cons next rest ih =>
    obtain ⟨key', value'⟩ := next
    rw [prettyMembers, String.toList_append, String.toList_append, ih, membersAfter, membersAfter,
      List.flatMap_cons]
    · simp
    · nofun

/-- **The indented text of a value writes it.** -/
theorem writes_prettyAt (j : Json) (level : Nat) : j.Writes (j.prettyAt level).toList := by
  induction j using nesting_induction generalizing level with
  | flat j flat =>
    have same : j.prettyAt level = j.compact := by
      cases j with
      | list => exact absurd flat (Nat.succ_ne_zero _)
      | object => exact absurd flat (Nat.succ_ne_zero _)
      | _ => rfl
    rw [same]
    exact .leaf flat
  | list items each =>
    cases items with
    | nil => simpa [prettyAt] using Writes.list (.nil .nil)
    | cons item rest =>
      have first := each item List.mem_cons_self (level + 1)
      have after : WritesItems false rest
          (itemsAfter (indent (level + 1)).toList (fun j => (j.prettyAt (level + 1)).toList) rest ++
            (indent level).toList) :=
        writesItems_after (blank_indent _) (blank_indent _) fun j inside =>
          each j (List.mem_cons_of_mem _ inside) _
      simpa [prettyAt, toList_prettyItems, comma] using
        Writes.list (.cons (blank_indent (level + 1)) first after)
  | object members each =>
    cases members with
    | nil => simpa [prettyAt] using Writes.object (.nil .nil)
    | cons member rest =>
      obtain ⟨key, value⟩ := member
      have space : Blank [' '] := by simp [Blank, Reader.isBlank]
      have first := each (key, value) List.mem_cons_self (level + 1)
      have after : WritesMembers false rest
          (membersAfter (indent (level + 1)).toList [' ']
            (fun j => (j.prettyAt (level + 1)).toList) rest ++ (indent level).toList) :=
        writesMembers_after (blank_indent _) space (blank_indent _) fun m inside =>
          each m (List.mem_cons_of_mem _ inside) _
      simpa [prettyAt, toList_prettyMembers, comma] using
        Writes.object (.cons (blank_indent (level + 1)) space first after)

end Json

/-! ## Reading a written value -/

namespace Reader

/-- A step starts by passing over blanks. -/
def Skips {α : Type} (r : Reader α) : Prop :=
  ∀ blank s, Json.Blank blank → r (blank ++ s) = r s

section skips

variable {α β : Type} {r : Reader α}

theorem Skips.peek : Skips peek := by
  intro blank s isBlank
  rw [peek_eq, peek_eq, List.dropWhile_append_of_pos isBlank]

theorem Skips.bind (h : Skips r) (f : α → Reader β) : Skips (r >>= f) := by
  intro blank s isBlank
  show Except.bind (r (blank ++ s)) _ = Except.bind (r s) _
  rw [h blank s isBlank]

theorem Skips.yields (h : Skips r) {blank s rest : List Char} {a : α} {ok : Prop}
    (isBlank : Json.Blank blank) (found : Yields r s a rest ok) :
    Yields r (blank ++ s) a rest ok := by
  rwa [Yields, h blank s isBlank]

end skips

end Reader

/-- A value with `depth` free levels around it is read back from any of its texts if it fits, and
refused otherwise. -/
def Reads {α : Type} (r : Reader α) (depth : Nat) (j : Json) (a : α) (fits : Prop) : Prop :=
  ∀ text, j.Writes text → ∀ blank, Json.Blank blank → ∀ rest, Ends rest →
    Reader.Yields r (blank ++ (text ++ rest)) a rest (j.depth ≤ depth ∧ fits)

namespace Reads

open Reader

variable {α β : Type} {r : Reader α} {depth : Nat} {j : Json} {a : α} {fits : Prop}

/-- Values that are no containers always stand at a free level. -/
theorem of_flat (flat : j.depth = 0) (skips : Skips r)
    (h : ∀ rest, Ends rest → Yields r (j.compact.toList ++ rest) a rest fits) :
    Reads r depth j a fits := by
  intro text writes blank isBlank rest ends
  rw [writes.eq_compact flat]
  exact skips.yields isBlank ((h rest ends).congr (by simp [flat]))

theorem text (s : String) : Reads text depth (.text s) s True :=
  of_flat rfl (Skips.peek.bind _) fun rest _ => .of_ok (text_quoted s rest)

theorem natBelow {limit : Nat} (word : limit ≤ 2 ^ 64) (n : Nat) :
    Reads (natBelow limit) depth (.nat n) n (n < limit) := by
  refine of_flat rfl ((Skips.peek.bind _).bind _) fun rest ends => ?_
  rw [Json.compact, Nat.toString_eq_repr, Nat.toList_repr]
  exact natBelow_toDigits word n ends

theorem float {x : Float} (h : ReadsBack x) : Reads float depth (.float x) x True :=
  of_flat rfl ((Skips.peek.bind _).bind _) fun _ ends => .of_ok (h.float ends)

theorem map (h : Reads r depth j a fits) (f : α → β) :
    Reads (do return f (← r)) depth j (f a) fits :=
  fun text writes blank isBlank rest ends => (h text writes blank isBlank rest ends).map

theorem optional (h : Reads r depth j a fits) (plain : j ≠ .null) (exact : ∀ x, j ≠ .float x) :
    Reads (optional r) depth j (some a) fits := by
  intro text writes blank isBlank rest ends
  refine (Skips.peek.bind _).yields isBlank ?_
  have mapped := (h text writes [] .nil rest ends).map (g := some)
  obtain ⟨c, tail, rfl, visible, -, -, -, null⟩ := writes.starts
  have start : c ≠ 'n' := by
    intro same
    rcases null same with rfl | ⟨x, rfl⟩
    · exact plain rfl
    · exact exact x rfl
  refine .after (peek_cons visible) ?_
  rw [if_neg (by simpa using start)]
  exact mapped

/-- A name is one of those it is looked up in. -/
theorem choice {names : List (String × α)} {name : String} (found : names.lookup name = some a) :
    Reads (choice depth names) depth (.text name) a True := by
  refine of_flat rfl (Skips.peek.bind _) fun rest _ => .of_ok ?_
  rw [Json.compact, toList_quoted, List.cons_append, Reader.choice, bind_of_ok (peek_cons rfl)]
  dsimp only
  rw [if_pos rfl, ← List.cons_append, ← toList_quoted, named, bind_of_ok (text_quoted name rest),
    found]
  rfl

end Reads

end CircuitGrid
