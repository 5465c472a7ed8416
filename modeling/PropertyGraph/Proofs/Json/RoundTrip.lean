/-
  PropertyGraph.Proofs.Json.RoundTrip
  ───────────────────────────────────
  **JSON TEXT IS READ BACK.**

  A value is `Legible` if its integers are read as integers and its floats
  read back.  Reading what was written gives a legible value back, in either
  layout, as long as it is not nested deeper than the reader admits:

      readValue_write  — in the middle of a text, and what is left of it
      parse_text       — a whole text

  A float that does not read back is still read as some float, so the proofs
  are about what a value `ReadsAs`; a legible one reads as itself.

  The proofs go through the value by structural recursion, with items and
  members beside it.  The reader's fuel is twice the length of what is left
  of the text, and every item and every bracket takes a character.
-/
import PropertyGraph.Proofs.Json.Number
import PropertyGraph.Proofs.Json.String

namespace PropertyGraph.Json

open PropertyGraph.Text

/-! ## §1. Legible values. -/

mutual

/-- Integers in range, and floats that read back, at every depth. -/
def Legible : Json → Prop
  | .null | .bool _ | .str _ => True
  | .int i => FitsInt i
  | .float x => ReadsBack x
  | .array items => LegibleItems items
  | .object members => LegibleMembers members

/-- Every item is legible. -/
def LegibleItems : List Json → Prop
  | [] => True
  | item :: items => Legible item ∧ LegibleItems items

/-- Every member has a legible value. -/
def LegibleMembers : List (String × Json) → Prop
  | [] => True
  | (_, value) :: members => Legible value ∧ LegibleMembers members

end

mutual

/-- What a written value is read as: integers in range and everything else
but floats as it is, and a float as the value of its digits. -/
def ReadsAs : Json → Json → Prop
  | .null, read => read = .null
  | .bool b, read => read = .bool b
  | .str s, read => read = .str s
  | .int i, read => FitsInt i ∧ read = .int i
  | .float x, read =>
    ∃ n, readNumeral (x.text numberStyle) = some (n, []) ∧ ofNumeral? n = some read
  | .array items, read => ∃ readItems, ItemsReadAs items readItems ∧ read = .array readItems
  | .object members, read =>
    ∃ readMembers, MembersReadAs members readMembers ∧ read = .object readMembers

/-- One by one. -/
def ItemsReadAs : List Json → List Json → Prop
  | [], [] => True
  | item :: items, read :: readItems => ReadsAs item read ∧ ItemsReadAs items readItems
  | _, _ => False

/-- One by one, under the same names. -/
def MembersReadAs : List (String × Json) → List (String × Json) → Prop
  | [], [] => True
  | (name, value) :: members, (readName, read) :: readMembers =>
    name = readName ∧ ReadsAs value read ∧ MembersReadAs members readMembers
  | _, _ => False

end

mutual

/-- A legible value is read as itself. -/
theorem Legible.readsAs : ∀ {j : Json}, Legible j → ReadsAs j j
  | .null, _ => rfl
  | .bool _, _ => rfl
  | .str _, _ => rfl
  | .int _, h => ⟨h, rfl⟩
  | .float _, h => ReadsBack.readNumeral h
  | .array items, h => ⟨items, LegibleItems.readAs h, rfl⟩
  | .object members, h => ⟨members, LegibleMembers.readAs h, rfl⟩

theorem LegibleItems.readAs : ∀ {items : List Json}, LegibleItems items → ItemsReadAs items items
  | [], _ => trivial
  | _ :: _, h => ⟨Legible.readsAs h.1, LegibleItems.readAs h.2⟩

theorem LegibleMembers.readAs : ∀ {members : List (String × Json)}, LegibleMembers members →
    MembersReadAs members members
  | [], _ => trivial
  | (_, _) :: _, h => ⟨rfl, Legible.readsAs h.1, LegibleMembers.readAs h.2⟩

end

/-! ## §2. Blanks between the parts. -/

/-- The line break of a layout is blank. -/
theorem skipBlanks_writeBreak (layout : Layout) (level : Nat) (text : List Char) :
    skipBlanks (writeBreak layout level text) = skipBlanks text := by
  cases layout with
  | compact => rfl
  | indented =>
    have hblanks : ∀ c ∈ List.replicate (2 * level) ' ', isBlank c = true := by
      intro c hc
      rw [List.eq_of_mem_replicate hc]
      rfl
    show (List.replicate (2 * level) ' ' ++ text).dropWhile isBlank = text.dropWhile isBlank
    exact List.dropWhile_append_of_pos hblanks

theorem length_writeBreak (layout : Layout) (level : Nat) (text : List Char) :
    text.length ≤ (writeBreak layout level text).length := by
  cases layout with
  | compact => exact Nat.le_refl _
  | indented =>
    show text.length ≤ (List.replicate (2 * level) ' ' ++ text).length + 1
    rw [List.length_append]
    omega

theorem length_writeColon (layout : Layout) (text : List Char) :
    text.length < (writeColon layout text).length := by
  cases layout with
  | compact => exact Nat.lt_succ_self _
  | indented =>
    show text.length < text.length + 2
    omega

/-- A name and its colon take at least one character. -/
theorem length_writeMember (layout : Layout) (name : String) (text : List Char) :
    text.length < (writeString name (writeColon layout text)).length := by
  have hname := length_writeChars name.toList (writeColon layout text)
  have hcolon := length_writeColon layout text
  rw [writeString, List.length_cons]
  omega

/-- What follows an item, a member or a whole value. -/
def EndsValue (text : List Char) : Prop :=
  ∀ c tail, text = c :: tail → isBlank c = true ∨ c = ',' ∨ c = ']' ∨ c = '\x7d'

theorem EndsValue.endsNumber {text : List Char} (h : EndsValue text) : EndsNumber text := by
  intro c tail heq
  rcases h c tail heq with hblank | rfl | rfl | rfl
  · simp only [isBlank, Bool.or_eq_true, beq_iff_eq] at hblank
    rcases hblank with ((rfl | rfl) | rfl) | rfl <;> rfl
  · rfl
  · rfl
  · rfl

theorem endsValue_nil : EndsValue [] := by
  intro c tail h
  cases h

theorem endsValue_cons {c : Char} {text : List Char} (h : c = ',' ∨ c = ']' ∨ c = '\x7d') :
    EndsValue (c :: text) := by
  intro d tail heq
  obtain ⟨rfl, -⟩ := List.cons.inj heq
  exact .inr h

/-- A closing bracket, after the line break of the layout. -/
theorem endsValue_writeBreak (layout : Layout) (level : Nat) {c : Char} {text : List Char}
    (h : c = ',' ∨ c = ']' ∨ c = '\x7d') : EndsValue (writeBreak layout level (c :: text)) := by
  cases layout with
  | compact => exact endsValue_cons h
  | indented =>
    intro d tail heq
    obtain ⟨rfl, -⟩ := List.cons.inj heq
    exact .inl rfl

/-! ## §3. What a written value begins with. -/

/-- Characters with which a value may begin. -/
def beginsValue (c : Char) : Bool :=
  beginsNumber c || ['"', '[', '\x7b', 'n', 't', 'f'].contains c

theorem beginsValue_ne {c : Char} (h : beginsValue c = true) :
    isBlank c = false ∧ c ≠ ']' ∧ c ≠ '\x7d' := by
  unfold beginsValue at h
  rcases Bool.or_eq_true_iff.1 h with hnumber | hother
  · refine ⟨(beginsNumber_ne hnumber).1, ?_, ?_⟩ <;>
    · intro heq
      subst heq
      exact absurd hnumber (by decide)
  · rw [List.contains_iff_mem] at hother
    simp only [List.mem_cons, List.not_mem_nil, or_false] at hother
    rcases hother with rfl | rfl | rfl | rfl | rfl | rfl <;>
      exact ⟨by decide, by decide, by decide⟩

theorem write_begins (layout : Layout) (level : Nat) (j : Json) (rest : List Char) :
    ∃ c tail, write layout level j rest = c :: tail ∧ beginsValue c = true := by
  cases j with
  | null => exact ⟨'n', _, rfl, rfl⟩
  | bool b => cases b <;> exact ⟨_, _, rfl, rfl⟩
  | int i =>
    obtain ⟨c, tail, htext, hc⟩ := intText_begins i
    rw [write, htext]
    refine ⟨c, tail ++ rest, rfl, ?_⟩
    simp only [beginsValue, hc, Bool.true_or]
  | float x =>
    obtain ⟨c, tail, htext, hc⟩ := float_text_begins numberStyle x
    rw [write, htext]
    refine ⟨c, tail ++ rest, rfl, ?_⟩
    simp only [beginsValue, hc, Bool.true_or]
  | str s => exact ⟨'"', _, rfl, rfl⟩
  | array items => cases items <;> exact ⟨'[', _, rfl, rfl⟩
  | object members => cases members <;> exact ⟨'\x7b', _, rfl, rfl⟩

theorem skipBlanks_write (layout : Layout) (level : Nat) (j : Json) (rest : List Char) :
    skipBlanks (write layout level j rest) = write layout level j rest := by
  obtain ⟨c, tail, hwrite, hc⟩ := write_begins layout level j rest
  rw [hwrite]
  exact skipBlanks_of_not_blank (beginsValue_ne hc).1

/-! ## §4. Lengths. -/

mutual

/-- A value takes at least one character. -/
theorem length_write (layout : Layout) (level : Nat) :
    ∀ (j : Json) (rest : List Char), rest.length < (write layout level j rest).length
  | .null, rest => by
    show rest.length < rest.length + 4
    omega
  | .bool true, rest => by
    show rest.length < rest.length + 4
    omega
  | .bool false, rest => by
    show rest.length < rest.length + 5
    omega
  | .int i, rest => by
    obtain ⟨c, tail, htext, -⟩ := intText_begins i
    rw [write, htext, List.length_append, List.length_cons]
    omega
  | .float x, rest => by
    obtain ⟨c, tail, htext, -⟩ := float_text_begins numberStyle x
    rw [write, htext, List.length_append, List.length_cons]
    omega
  | .str s, rest => by
    have hlength := length_writeChars s.toList rest
    rw [write, writeString, List.length_cons]
    omega
  | .array [], rest => by
    show rest.length < rest.length + 2
    omega
  -- what is written after a part is that part and more: the lengths chain up
  | .array (item :: items), rest => by
    have hend := length_writeBreak layout level (']' :: rest)
    have hitems := length_writeItems layout (level + 1) items
      (writeBreak layout level (']' :: rest))
    have hitem := length_write layout (level + 1) item
      (writeItems layout (level + 1) items (writeBreak layout level (']' :: rest)))
    have hbreak := length_writeBreak layout (level + 1)
      (write layout (level + 1) item
        (writeItems layout (level + 1) items (writeBreak layout level (']' :: rest))))
    rw [write]
    rw [List.length_cons] at hend ⊢
    omega
  | .object [], rest => by
    show rest.length < rest.length + 2
    omega
  | .object ((name, value) :: members), rest => by
    have hend := length_writeBreak layout level ('\x7d' :: rest)
    have hmembers := length_writeMembers layout (level + 1) members
      (writeBreak layout level ('\x7d' :: rest))
    have hvalue := length_write layout (level + 1) value
      (writeMembers layout (level + 1) members (writeBreak layout level ('\x7d' :: rest)))
    have hmember := length_writeMember layout name
      (write layout (level + 1) value
        (writeMembers layout (level + 1) members (writeBreak layout level ('\x7d' :: rest))))
    have hbreak := length_writeBreak layout (level + 1)
      (writeString name (writeColon layout
        (write layout (level + 1) value
          (writeMembers layout (level + 1) members (writeBreak layout level ('\x7d' :: rest))))))
    rw [write]
    rw [List.length_cons] at hend ⊢
    omega

theorem length_writeItems (layout : Layout) (level : Nat) :
    ∀ (items : List Json) (rest : List Char),
      rest.length ≤ (writeItems layout level items rest).length
  | [], _ => Nat.le_refl _
  | item :: items, rest => by
    have hitems := length_writeItems layout level items rest
    have hitem := length_write layout level item (writeItems layout level items rest)
    have hbreak := length_writeBreak layout level
      (write layout level item (writeItems layout level items rest))
    rw [writeItems, List.length_cons]
    omega

theorem length_writeMembers (layout : Layout) (level : Nat) :
    ∀ (members : List (String × Json)) (rest : List Char),
      rest.length ≤ (writeMembers layout level members rest).length
  | [], _ => Nat.le_refl _
  | (name, value) :: members, rest => by
    have hmembers := length_writeMembers layout level members rest
    have hvalue := length_write layout level value (writeMembers layout level members rest)
    have hmember := length_writeMember layout name
      (write layout level value (writeMembers layout level members rest))
    have hbreak := length_writeBreak layout level
      (writeString name (writeColon layout
        (write layout level value (writeMembers layout level members rest))))
    rw [writeMembers, List.length_cons]
    omega

end

/-! ## §5. Reading what was written. -/

theorem readValue_skipBlanks (fuel depth : Nat) (text : List Char) :
    readValue fuel depth (skipBlanks text) = readValue fuel depth text := by
  cases fuel with
  | zero => rw [readValue, readValue]
  | succ fuel =>
    have hidem : skipBlanks (skipBlanks text) = skipBlanks text :=
      dropWhile_stops (stops_dropWhile isBlank text)
    rw [readValue, readValue, hidem]

theorem readItems_skipBlanks (fuel depth : Nat) (text : List Char) :
    readItems fuel depth (skipBlanks text) = readItems fuel depth text := by
  cases fuel with
  | zero => rw [readItems, readItems]
  | succ fuel => rw [readItems, readItems, readValue_skipBlanks]

theorem readMembers_skipBlanks (fuel depth : Nat) (text : List Char) :
    readMembers fuel depth (skipBlanks text) = readMembers fuel depth text := by
  cases fuel with
  | zero => rw [readMembers, readMembers]
  | succ fuel =>
    have hidem : skipBlanks (skipBlanks text) = skipBlanks text :=
      dropWhile_stops (stops_dropWhile isBlank text)
    rw [readMembers, readMembers, hidem]

/-- Items with a comma between any two. -/
def writeListed (layout : Layout) (level : Nat) : List Json → List Char → List Char
  | [], rest => rest
  | item :: items, rest => write layout level item (writeItems layout level items rest)

/-- Members with a comma between any two. -/
def writeListedMembers (layout : Layout) (level : Nat) :
    List (String × Json) → List Char → List Char
  | [], rest => rest
  | (name, value) :: members, rest =>
    writeString name (writeColon layout
      (write layout level value (writeMembers layout level members rest)))

theorem endsValue_writeItems {layout : Layout} {level : Nat} {items : List Json}
    {rest : List Char} (h : EndsValue rest) : EndsValue (writeItems layout level items rest) := by
  cases items with
  | nil => exact h
  | cons item items => exact endsValue_cons (.inl rfl)

theorem endsValue_writeMembers {layout : Layout} {level : Nat}
    {members : List (String × Json)} {rest : List Char} (h : EndsValue rest) :
    EndsValue (writeMembers layout level members rest) := by
  cases members with
  | nil => exact h
  | cons member members => exact endsValue_cons (.inl rfl)

/-- Behind a bracket there is one level less. -/
def inside {α : Type} (wrap : α → Json) (read : Nat → Option (α × List Char)) :
    Nat → Option (Json × List Char)
  | 0 => none
  | limit + 1 => (read limit).map (fun result => (wrap result.1, result.2))

/-- The items of an array, of which there may be none. -/
def readItemsOrNone (fuel : Nat) (text : List Char) (depth : Nat) :
    Option (List Json × List Char) :=
  match skipBlanks text with
  | ']' :: rest => some ([], rest)
  | text => readItems fuel depth text

/-- The members of an object, of which there may be none. -/
def readMembersOrNone (fuel : Nat) (text : List Char) (depth : Nat) :
    Option (List (String × Json) × List Char) :=
  match skipBlanks text with
  | '\x7d' :: rest => some ([], rest)
  | text => readMembers fuel depth text

theorem readValue_array_succ {fuel : Nat} {text tail : List Char}
    (hbracket : skipBlanks text = '[' :: tail) (depth : Nat) :
    readValue (fuel + 1) (depth + 1) text
      = match skipBlanks tail with
        | ']' :: rest => some (.array [], rest)
        | text => (readItems fuel depth text).bind (fun result =>
            some (.array result.1, result.2)) := by
  rw [readValue, hbracket]
  rfl

/-- Reading an array goes on to its items. -/
theorem readValue_array {fuel : Nat} {text tail : List Char}
    (hbracket : skipBlanks text = '[' :: tail) (depth : Nat) :
    readValue (fuel + 1) depth text = inside .array (readItemsOrNone fuel tail) depth := by
  cases depth with
  | zero =>
    rw [readValue, hbracket]
    rfl
  | succ depth =>
    rw [readValue_array_succ hbracket]
    unfold inside readItemsOrNone
    split
    · rfl
    · show _ = (readItems fuel depth (skipBlanks tail)).map _
      rw [Option.map_eq_bind]
      rfl

theorem readValue_object_succ {fuel : Nat} {text tail : List Char}
    (hbrace : skipBlanks text = '\x7b' :: tail) (depth : Nat) :
    readValue (fuel + 1) (depth + 1) text
      = match skipBlanks tail with
        | '\x7d' :: rest => some (.object [], rest)
        | text => (readMembers fuel depth text).bind (fun result =>
            some (.object result.1, result.2)) := by
  rw [readValue, hbrace]
  rfl

/-- Reading an object goes on to its members. -/
theorem readValue_object {fuel : Nat} {text tail : List Char}
    (hbrace : skipBlanks text = '\x7b' :: tail) (depth : Nat) :
    readValue (fuel + 1) depth text = inside .object (readMembersOrNone fuel tail) depth := by
  cases depth with
  | zero =>
    rw [readValue, hbrace]
    rfl
  | succ depth =>
    rw [readValue_object_succ hbrace]
    unfold inside readMembersOrNone
    split
    · rfl
    · show _ = (readMembers fuel depth (skipBlanks tail)).map _
      rw [Option.map_eq_bind]
      rfl

/-- Where an item begins there are items. -/
theorem readValue_bracket {fuel depth : Nat} {c : Char} {text : List Char}
    (hbegin : ∃ tail, skipBlanks text = c :: tail) (hc : c ≠ ']') :
    readValue (fuel + 1) (depth + 1) ('[' :: text)
      = (readItems fuel depth text).map (fun result => (.array result.1, result.2)) := by
  obtain ⟨tail, htext⟩ := hbegin
  have hitems : readItemsOrNone fuel text depth = readItems fuel depth text := by
    rw [← readItems_skipBlanks, readItemsOrNone, htext]
    split
    next heq => exact absurd (List.cons.inj heq).1 hc
    next => rfl
  rw [readValue_array rfl, inside, hitems]

/-- Where a member begins there are members. -/
theorem readValue_brace {fuel depth : Nat} {c : Char} {text : List Char}
    (hbegin : ∃ tail, skipBlanks text = c :: tail) (hc : c ≠ '\x7d') :
    readValue (fuel + 1) (depth + 1) ('\x7b' :: text)
      = (readMembers fuel depth text).map (fun result => (.object result.1, result.2)) := by
  obtain ⟨tail, htext⟩ := hbegin
  have hmembers : readMembersOrNone fuel text depth = readMembers fuel depth text := by
    rw [← readMembers_skipBlanks, readMembersOrNone, htext]
    split
    next heq => exact absurd (List.cons.inj heq).1 hc
    next => rfl
  rw [readValue_object rfl, inside, hmembers]

/-- A string is a value. -/
theorem readValue_quote {fuel depth : Nat} (s : String) (rest : List Char) :
    readValue (fuel + 1) depth ('"' :: writeChars s.toList rest) = some (.str s, rest) := by
  rw [readValue]
  show (readString (writeChars s.toList rest)).bind
    (fun result => some (Json.str result.1, result.2)) = _
  rw [readString_writeChars]
  rfl

/-- The last item stands before the closing bracket. -/
theorem readItems_last {fuel depth : Nat} {text close rest : List Char} {item : Json}
    (hitem : readValue fuel depth text = some (item, close))
    (hclose : skipBlanks close = ']' :: rest) :
    readItems (fuel + 1) depth text = some ([item], rest) := by
  rw [readItems, hitem]
  dsimp only [Option.bind_eq_bind, Option.bind_some]
  rw [hclose]
  rfl

/-- Further items stand after a comma. -/
theorem readItems_comma {fuel depth : Nat} {text more rest : List Char} {item : Json}
    {items : List Json} (hitem : readValue fuel depth text = some (item, ',' :: more))
    (hmore : readItems fuel depth more = some (items, rest)) :
    readItems (fuel + 1) depth text = some (item :: items, rest) := by
  rw [readItems, hitem]
  show (readItems fuel depth more).bind _ = _
  rw [hmore]
  rfl

/-- Reading a member goes on to its value. -/
theorem readMembers_name (layout : Layout) (fuel depth : Nat) (name : String)
    (text : List Char) :
    readMembers (fuel + 1) depth (writeString name (writeColon layout text))
      = (readValue fuel depth text).bind (fun (value, text) =>
          match skipBlanks text with
          | '\x7d' :: text => some ([(name, value)], text)
          | ',' :: text =>
            (readMembers fuel depth text).bind (fun (members, text) =>
              some ((name, value) :: members, text))
          | _ => none) := by
  rw [readMembers]
  show (readString (writeChars name.toList (writeColon layout text))).bind _ = _
  rw [readString_writeChars, Option.bind_some]
  cases layout with
  | compact => rfl
  | indented =>
    show (readValue fuel depth (' ' :: text)).bind _ = _
    rw [← readValue_skipBlanks fuel depth (' ' :: text)]
    show (readValue fuel depth (skipBlanks text)).bind _ = _
    rw [readValue_skipBlanks]
    rfl

/-- The last member stands before the closing brace. -/
theorem readMembers_last {layout : Layout} {fuel depth : Nat} {name : String}
    {text close rest : List Char} {value : Json}
    (hvalue : readValue fuel depth text = some (value, close))
    (hclose : skipBlanks close = '\x7d' :: rest) :
    readMembers (fuel + 1) depth (writeString name (writeColon layout text))
      = some ([(name, value)], rest) := by
  rw [readMembers_name, hvalue, Option.bind_some]
  dsimp only
  rw [hclose]
  rfl

/-- Further members stand after a comma. -/
theorem readMembers_comma {layout : Layout} {fuel depth : Nat} {name : String}
    {text more rest : List Char} {value : Json} {members : List (String × Json)}
    (hvalue : readValue fuel depth text = some (value, ',' :: more))
    (hmore : readMembers fuel depth more = some (members, rest)) :
    readMembers (fuel + 1) depth (writeString name (writeColon layout text))
      = some ((name, value) :: members, rest) := by
  rw [readMembers_name, hvalue, Option.bind_some]
  show (readMembers fuel depth more).bind _ = _
  rw [hmore]
  rfl

mutual

/-- **A written value is read**, and what follows it is left. -/
theorem readValue_write (layout : Layout) :
    ∀ (j : Json) {read : Json} {level fuel depth : Nat} {rest : List Char}, ReadsAs j read →
      j.depth ≤ depth → EndsValue rest → 2 * (write layout level j rest).length ≤ fuel →
      readValue fuel depth (write layout level j rest) = some (read, rest)
  -- every value takes a character, so the fuel cannot have run out
  | j, _, level, 0, depth, rest, _, _, _, hfuel => by
    have hlength := length_write layout level j rest
    omega
  | .null, _, level, fuel + 1, depth, rest, hread, _, _, _ => by
    obtain rfl := hread
    rw [readValue]
    rfl
  | .bool true, _, level, fuel + 1, depth, rest, hread, _, _, _ => by
    obtain rfl := hread
    rw [readValue]
    rfl
  | .bool false, _, level, fuel + 1, depth, rest, hread, _, _, _ => by
    obtain rfl := hread
    rw [readValue]
    rfl
  | .int i, _, level, fuel + 1, depth, rest, hread, _, hrest, _ => by
    obtain ⟨hfits, rfl⟩ := hread
    rw [write]
    exact readValue_of_readNumeral hrest.endsNumber (intText_begins i) (readNumeral_intText i)
      (ofNumeral?_intNumeral hfits)
  | .float x, _, level, fuel + 1, depth, rest, hread, _, hrest, _ => by
    obtain ⟨n, hnumeral, hvalue⟩ := hread
    rw [write]
    exact readValue_of_readNumeral hrest.endsNumber (float_text_begins numberStyle x) hnumeral
      hvalue
  | .str s, _, level, fuel + 1, depth, rest, hread, _, _, _ => by
    obtain rfl := hread
    rw [write]
    exact readValue_quote s rest
  -- a value inside brackets is deeper than nothing
  | .array _, _, level, fuel + 1, 0, rest, _, hdepth, _, _ =>
    absurd hdepth (Nat.not_succ_le_zero _)
  | .object _, _, level, fuel + 1, 0, rest, _, hdepth, _, _ =>
    absurd hdepth (Nat.not_succ_le_zero _)
  | .array [], _, level, fuel + 1, depth + 1, rest, ⟨[], _, hread⟩, _, _, _ => by
    obtain rfl := hread
    rw [readValue]
    rfl
  | .object [], _, level, fuel + 1, depth + 1, rest, ⟨[], _, hread⟩, _, _, _ => by
    obtain rfl := hread
    rw [readValue]
    rfl
  | .array (item :: items), _, level, fuel + 1, depth + 1, rest, hread, hdepth, _, hfuel => by
    obtain ⟨read, hitemsRead, rfl⟩ := hread
    -- the text in front of the closing bracket ends the last item
    have hend : EndsValue (writeBreak layout level (']' :: rest)) :=
      endsValue_writeBreak layout level (.inr (.inl rfl))
    have hclose : skipBlanks (writeBreak layout level (']' :: rest)) = ']' :: rest :=
      skipBlanks_writeBreak layout level (']' :: rest)
    have hbreak := length_writeBreak layout (level + 1)
      (writeListed layout (level + 1) (item :: items) (writeBreak layout level (']' :: rest)))
    have hbegin : ∃ c tail, skipBlanks (writeBreak layout (level + 1)
        (writeListed layout (level + 1) (item :: items) (writeBreak layout level (']' :: rest))))
        = c :: tail ∧ beginsValue c = true := by
      rw [skipBlanks_writeBreak, writeListed, skipBlanks_write]
      exact write_begins layout (level + 1) item _
    obtain ⟨c, tail, htail, hc⟩ := hbegin
    -- the opening bracket pays for the step from a value to its items
    have hlength : (write layout level (.array (item :: items)) rest).length
        = (writeBreak layout (level + 1) (writeListed layout (level + 1) (item :: items)
            (writeBreak layout level (']' :: rest)))).length + 1 := by
      rw [write]
      rfl
    have hitems := readItems_write layout (item :: items) (List.cons_ne_nil item items) hitemsRead
      (Nat.le_of_succ_le_succ hdepth) hend hclose
      (show 2 * (writeListed layout (level + 1) (item :: items)
        (writeBreak layout level (']' :: rest))).length + 1 ≤ fuel by omega)
    -- the line break after the bracket is skipped by the reader of items
    rw [← readItems_skipBlanks, ← skipBlanks_writeBreak layout (level + 1),
      readItems_skipBlanks] at hitems
    rw [write]
    refine (readValue_bracket ⟨tail, htail⟩ (beginsValue_ne hc).2.1).trans ?_
    exact congrArg (Option.map _) hitems
  | .object (member :: members), _, level, fuel + 1, depth + 1, rest, hread, hdepth, _, hfuel => by
    obtain ⟨read, hmembersRead, rfl⟩ := hread
    obtain ⟨name, value⟩ := member
    have hend : EndsValue (writeBreak layout level ('\x7d' :: rest)) :=
      endsValue_writeBreak layout level (.inr (.inr rfl))
    have hclose : skipBlanks (writeBreak layout level ('\x7d' :: rest)) = '\x7d' :: rest :=
      skipBlanks_writeBreak layout level ('\x7d' :: rest)
    have hbreak := length_writeBreak layout (level + 1)
      (writeListedMembers layout (level + 1) ((name, value) :: members)
        (writeBreak layout level ('\x7d' :: rest)))
    have hbegin : ∃ tail, skipBlanks (writeBreak layout (level + 1)
        (writeListedMembers layout (level + 1) ((name, value) :: members)
          (writeBreak layout level ('\x7d' :: rest)))) = '"' :: tail := by
      rw [skipBlanks_writeBreak]
      exact ⟨_, rfl⟩
    have hlength : (write layout level (.object ((name, value) :: members)) rest).length
        = (writeBreak layout (level + 1) (writeListedMembers layout (level + 1)
            ((name, value) :: members) (writeBreak layout level ('\x7d' :: rest)))).length + 1 := by
      rw [write]
      rfl
    have hmembers := readMembers_write layout ((name, value) :: members)
      (List.cons_ne_nil (name, value) members) hmembersRead (Nat.le_of_succ_le_succ hdepth) hend
      hclose (show 2 * (writeListedMembers layout (level + 1) ((name, value) :: members)
        (writeBreak layout level ('\x7d' :: rest))).length + 1 ≤ fuel by omega)
    rw [← readMembers_skipBlanks, ← skipBlanks_writeBreak layout (level + 1),
      readMembers_skipBlanks] at hmembers
    rw [write]
    refine (readValue_brace hbegin (by decide)).trans ?_
    exact congrArg (Option.map _) hmembers

/-- Items are read up to the closing bracket. -/
theorem readItems_write (layout : Layout) :
    ∀ (items : List Json) {read : List Json} {level fuel depth : Nat} {close rest : List Char},
      items ≠ [] → ItemsReadAs items read → depthItems items ≤ depth → EndsValue close →
      skipBlanks close = ']' :: rest →
      2 * (writeListed layout level items close).length + 1 ≤ fuel →
      readItems fuel depth (writeListed layout level items close) = some (read, rest)
  | [], _, _, _, _, _, _, hne, _, _, _, _, _ => absurd rfl hne
  | _, _, _, 0, _, _, _, _, _, _, _, _, hfuel => absurd hfuel (Nat.not_succ_le_zero _)
  | [item], [read], level, fuel + 1, depth, close, rest, _, hread, hdepth, hend, hclose, hfuel => by
    have hitem := readValue_write layout item hread.1
      (Nat.le_trans (Nat.le_max_left _ _) hdepth) hend (Nat.le_of_succ_le_succ hfuel)
    exact readItems_last hitem hclose
  | item :: next :: items, read :: readItems, level, fuel + 1, depth, close, rest, _, hread,
    hdepth, hend, hclose, hfuel => by
    have hitem := readValue_write layout item hread.1
      (Nat.le_trans (Nat.le_max_left _ _) hdepth) (endsValue_writeItems hend)
      (Nat.le_of_succ_le_succ hfuel)
    -- the item itself takes a character, and so does the comma
    have hlength := length_write layout level item
      (writeItems layout level (next :: items) close)
    have hcomma : (writeItems layout level (next :: items) close).length
        = (writeBreak layout level (writeListed layout level (next :: items) close)).length + 1 :=
      rfl
    have hbreak := length_writeBreak layout level
      (writeListed layout level (next :: items) close)
    have hmore := readItems_write layout (next :: items) (List.cons_ne_nil next items) hread.2
      (Nat.le_trans (Nat.le_max_right _ _) hdepth) hend hclose
      (show 2 * (writeListed layout level (next :: items) close).length + 1 ≤ fuel by
        rw [writeListed] at hfuel
        omega)
    rw [← readItems_skipBlanks, ← skipBlanks_writeBreak layout level,
      readItems_skipBlanks] at hmore
    exact readItems_comma hitem hmore

/-- Members are read up to the closing brace. -/
theorem readMembers_write (layout : Layout) :
    ∀ (members : List (String × Json)) {read : List (String × Json)} {level fuel depth : Nat}
      {close rest : List Char},
      members ≠ [] → MembersReadAs members read → depthMembers members ≤ depth →
      EndsValue close → skipBlanks close = '\x7d' :: rest →
      2 * (writeListedMembers layout level members close).length + 1 ≤ fuel →
      readMembers fuel depth (writeListedMembers layout level members close) = some (read, rest)
  | [], _, _, _, _, _, _, hne, _, _, _, _, _ => absurd rfl hne
  | _, _, _, 0, _, _, _, _, _, _, _, _, hfuel => absurd hfuel (Nat.not_succ_le_zero _)
  | [(name, value)], [(_, read)], level, fuel + 1, depth, close, rest, _, hread, hdepth, hend,
    hclose, hfuel => by
    obtain ⟨rfl, hread, -⟩ := hread
    have hlength := length_writeMember layout name (write layout level value close)
    have hvalue := readValue_write layout value hread
      (Nat.le_trans (Nat.le_max_left _ _) hdepth) hend
      (show 2 * (write layout level value close).length ≤ fuel by
        rw [writeListedMembers, writeMembers] at hfuel
        omega)
    exact readMembers_last hvalue hclose
  | (name, value) :: next :: members, (_, read) :: readMembers, level, fuel + 1, depth, close,
    rest, _, hread, hdepth, hend, hclose, hfuel => by
    obtain ⟨rfl, hread, hreadMore⟩ := hread
    have hname := length_writeMember layout name
      (write layout level value (writeMembers layout level (next :: members) close))
    have hvalue := readValue_write layout value hread
      (Nat.le_trans (Nat.le_max_left _ _) hdepth) (endsValue_writeMembers hend)
      (show 2 * (write layout level value
          (writeMembers layout level (next :: members) close)).length ≤ fuel by
        rw [writeListedMembers] at hfuel
        omega)
    -- the value takes a character, and so does the comma
    have hlength := length_write layout level value
      (writeMembers layout level (next :: members) close)
    have hcomma : (writeMembers layout level (next :: members) close).length
        = (writeBreak layout level
            (writeListedMembers layout level (next :: members) close)).length + 1 := by
      obtain ⟨nextName, nextValue⟩ := next
      rfl
    have hbreak := length_writeBreak layout level
      (writeListedMembers layout level (next :: members) close)
    have hmore := readMembers_write layout (next :: members) (List.cons_ne_nil next members)
      hreadMore (Nat.le_trans (Nat.le_max_right _ _) hdepth) hend hclose
      (show 2 * (writeListedMembers layout level (next :: members) close).length + 1 ≤ fuel by
        rw [writeListedMembers] at hfuel
        omega)
    rw [← readMembers_skipBlanks, ← skipBlanks_writeBreak layout level,
      readMembers_skipBlanks] at hmore
    obtain ⟨nextName, nextValue⟩ := next
    exact readMembers_comma hvalue hmore

end

/-- The text of a value is read, in either layout. -/
theorem ReadsAs.parse {j read : Json} {depth : Nat} (layout : Layout) (h : ReadsAs j read)
    (hdepth : j.depth ≤ depth) : parse depth (text layout j) = some read := by
  unfold Json.parse text
  rw [String.toList_ofList]
  dsimp only
  rw [readValue_write layout j h hdepth endsValue_nil (by omega)]
  rfl

/-- **A legible value is read back from its text**, in either layout. -/
theorem parse_text {j : Json} {depth : Nat} (layout : Layout) (hlegible : Legible j)
    (hdepth : j.depth ≤ depth) : parse depth (text layout j) = some j :=
  hlegible.readsAs.parse layout hdepth

end PropertyGraph.Json
