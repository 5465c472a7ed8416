/-
  PropertyGraph.Proofs.Json.Injective
  ───────────────────────────────────
  **EQUAL TEXTS COME FROM EQUAL DATA.**

  Two values with the same text differ at most in floats that are written
  alike (`SameText`); an integer is never written as a float.

      write_cut         — two values at the front of one text
      sameText_of_text  — whole texts

  A text does not say where its first value ends, so the statement is about
  values in front of texts that end them, and says that those are the same,
  too.  The proof goes through the first value; the second is of the same
  kind, because both begin with the same character (`kindOf`).
-/
import PropertyGraph.Proofs.Json.FloatText
import PropertyGraph.Proofs.Json.RoundTrip

namespace PropertyGraph.Json

/-! ## §1. Values that are written alike. -/

mutual

/-- The same data, up to floats with the same text. -/
inductive SameText : Json → Json → Prop where
  | null : SameText .null .null
  | bool (b : Bool) : SameText (.bool b) (.bool b)
  | int (i : Int) : SameText (.int i) (.int i)
  | float {x y : Finite64} (h : x.text numberStyle = y.text numberStyle) :
      SameText (.float x) (.float y)
  | str (s : String) : SameText (.str s) (.str s)
  | array {items others : List Json} (h : SameItems items others) :
      SameText (.array items) (.array others)
  | object {members others : List (String × Json)} (h : SameMembers members others) :
      SameText (.object members) (.object others)

/-- Items that are written alike, one by one. -/
inductive SameItems : List Json → List Json → Prop where
  | nil : SameItems [] []
  | cons {item other : Json} {items others : List Json} (h : SameText item other)
      (hrest : SameItems items others) : SameItems (item :: items) (other :: others)

/-- Members of the same names that are written alike, one by one. -/
inductive SameMembers : List (String × Json) → List (String × Json) → Prop where
  | nil : SameMembers [] []
  | cons {name : String} {value other : Json} {members others : List (String × Json)}
      (h : SameText value other) (hrest : SameMembers members others) :
      SameMembers ((name, value) :: members) ((name, other) :: others)

end

theorem SameMembers.length_eq {members others : List (String × Json)}
    (h : SameMembers members others) : members.length = others.length := by
  induction members generalizing others with
  | nil =>
    cases h
    rfl
  | cons member members ih =>
    cases h with
    | cons _ hrest => rw [List.length_cons, List.length_cons, ih hrest]

/-- Each member stands against one of the same name. -/
theorem SameMembers.exists_mem {members others : List (String × Json)}
    (h : SameMembers members others) {name : String} {value : Json}
    (hmem : (name, value) ∈ members) : ∃ other, (name, other) ∈ others ∧ SameText value other := by
  induction members generalizing others with
  | nil => cases hmem
  | cons member members ih =>
    cases h with
    | cons hvalue hrest =>
      rcases List.mem_cons.1 hmem with heq | hmem
      · obtain ⟨rfl, rfl⟩ := Prod.mk.inj heq
        exact ⟨_, List.mem_cons_self, hvalue⟩
      · obtain ⟨other, hother, hsame⟩ := ih hrest hmem
        exact ⟨other, List.mem_cons_of_mem _ hother, hsame⟩

/-! ## §2. Parts that end by themselves. -/

theorem writeBreak_inj {layout : Layout} {level : Nat} {text other : List Char}
    (h : writeBreak layout level text = writeBreak layout level other) : text = other := by
  cases layout with
  | compact => exact h
  | indented => exact List.append_cancel_left (List.cons.inj h).2

theorem writeColon_inj {layout : Layout} {text other : List Char}
    (h : writeColon layout text = writeColon layout other) : text = other := by
  cases layout with
  | compact => exact (List.cons.inj h).2
  | indented => exact (List.cons.inj (List.cons.inj h).2).2

/-- A string ends where its reader says it ends. -/
theorem writeString_inj {s t : String} {rest left : List Char}
    (h : writeString s rest = writeString t left) : s = t ∧ rest = left := by
  have hread := readString_writeChars s rest
  rw [(List.cons.inj h).2, readString_writeChars] at hread
  obtain ⟨hs, hrest⟩ := Prod.mk.inj (Option.some.inj hread)
  exact ⟨hs.symm, hrest.symm⟩

/-- So does a number, if something ends it. -/
theorem number_cut {first second rest left : List Char} {n m : Numeral}
    (hrest : EndsNumber rest) (hleft : EndsNumber left)
    (hfirst : ∃ c tail, first = c :: tail ∧ beginsNumber c = true)
    (hsecond : ∃ c tail, second = c :: tail ∧ beginsNumber c = true)
    (hn : readNumeral first = some (n, [])) (hm : readNumeral second = some (m, []))
    (h : first ++ rest = second ++ left) : first = second ∧ n = m ∧ rest = left := by
  obtain ⟨c, tail, rfl, -⟩ := hfirst
  obtain ⟨d, more, rfl, -⟩ := hsecond
  have hread := readNumeral_append hrest hn
  rw [h, readNumeral_append hleft hm] at hread
  obtain ⟨hnumeral, htext⟩ := Prod.mk.inj (Option.some.inj hread)
  -- the rests are the same, so the numbers in front of them are
  obtain rfl : left = rest := htext
  exact ⟨List.append_cancel_right h, hnumeral.symm, rfl⟩

/-! ## §3. Kinds. -/

/-- What a value is, as far as its first character tells. -/
inductive Kind where
  | null
  | bool
  | number
  | str
  | array
  | object

/-- The kind of value that begins with this character; a number, if no other. -/
def kindOf (c : Char) : Kind :=
  if c = 'n' then .null
  else if c = 't' ∨ c = 'f' then .bool
  else if c = '"' then .str
  else if c = '[' then .array
  else if c = '\x7b' then .object
  else .number

/-- The kind of a value. -/
def kind : Json → Kind
  | .null => .null
  | .bool _ => .bool
  | .int _ => .number
  | .float _ => .number
  | .str _ => .str
  | .array _ => .array
  | .object _ => .object

theorem kindOf_of_beginsNumber {c : Char} (h : beginsNumber c = true) : kindOf c = .number := by
  obtain ⟨-, hquote, hbracket, hbrace, hn, ht, hf⟩ := beginsNumber_ne h
  unfold kindOf
  rw [if_neg hn, if_neg (fun hor => hor.elim ht hf), if_neg hquote, if_neg hbracket, if_neg hbrace]

theorem write_kind (layout : Layout) (level : Nat) (j : Json) (rest : List Char) :
    ∃ c tail, write layout level j rest = c :: tail ∧ kindOf c = kind j := by
  cases j with
  | null => exact ⟨_, _, rfl, rfl⟩
  | bool b => cases b <;> exact ⟨_, _, rfl, rfl⟩
  | int i =>
    obtain ⟨c, tail, htext, hc⟩ := intText_begins i
    rw [write, htext]
    exact ⟨c, tail ++ rest, rfl, kindOf_of_beginsNumber hc⟩
  | float x =>
    obtain ⟨c, tail, htext, hc⟩ := float_text_begins numberStyle x
    rw [write, htext]
    exact ⟨c, tail ++ rest, rfl, kindOf_of_beginsNumber hc⟩
  | str s => exact ⟨_, _, rfl, rfl⟩
  | array items => cases items <;> exact ⟨_, _, rfl, rfl⟩
  | object members => cases members <;> exact ⟨_, _, rfl, rfl⟩

theorem kind_eq_of_write {layout : Layout} {level : Nat} {j k : Json} {rest left : List Char}
    (h : write layout level j rest = write layout level k left) : kind j = kind k := by
  obtain ⟨c, tail, hj, hc⟩ := write_kind layout level j rest
  obtain ⟨d, more, hk, hd⟩ := write_kind layout level k left
  rw [hj, hk] at h
  rw [← hc, ← hd, (List.cons.inj h).1]

/-! ## §4. Values in front of a text. -/

/-- The end of a list of items or members. -/
structure Closes (text : List Char) : Prop where
  endsValue : EndsValue text
  no_comma : ∀ tail, text ≠ ',' :: tail

theorem closes_writeBreak (layout : Layout) (level : Nat) {c : Char} {text : List Char}
    (h : c = ']' ∨ c = '\x7d') : Closes (writeBreak layout level (c :: text)) := by
  refine ⟨endsValue_writeBreak layout level (.inr h), ?_⟩
  intro tail heq
  cases layout with
  | compact =>
    obtain ⟨rfl, -⟩ := List.cons.inj heq
    exact absurd h (by decide)
  | indented => exact absurd (List.cons.inj heq).1 (by decide)

/-- A list without items is not taken for one with items. -/
theorem bracket_ne {layout : Layout} {level : Nat} {item : Json} {rest left : List Char} :
    ']' :: rest ≠ writeBreak layout level (write layout level item left) := by
  intro h
  have hskip := congrArg skipBlanks h
  rw [skipBlanks_writeBreak, skipBlanks_write] at hskip
  obtain ⟨c, tail, hwrite, hc⟩ := write_begins layout level item left
  rw [hwrite] at hskip
  exact (beginsValue_ne hc).2.1 (List.cons.inj hskip).1.symm

theorem brace_ne {layout : Layout} {level : Nat} {name : String} {rest left : List Char} :
    '\x7d' :: rest ≠ writeBreak layout level (writeString name left) := by
  intro h
  have hskip := congrArg skipBlanks h
  rw [skipBlanks_writeBreak] at hskip
  exact absurd (List.cons.inj hskip).1 (by decide)

section

variable {level : Nat} {rest left : List Char}

/-- Numbers are cut off alike, whatever they are. -/
theorem write_int_cut (layout : Layout) (i : Int) {k : Json}
    (h : write layout level (.int i) rest = write layout level k left) (hrest : EndsValue rest)
    (hleft : EndsValue left) : SameText (.int i) k ∧ rest = left := by
  have hkind := kind_eq_of_write h
  cases k with
  | int j =>
    obtain ⟨-, hnumeral, heq⟩ := number_cut hrest.endsNumber hleft.endsNumber (intText_begins i)
      (intText_begins j) (readNumeral_intText i) (readNumeral_intText j) h
    have hint : i = j := by rw [← toInt_intNumeral i, hnumeral, toInt_intNumeral]
    exact ⟨hint ▸ .int i, heq⟩
  | float y =>
    -- a float shows a point or a power of ten
    obtain ⟨-, hnumeral, -⟩ := number_cut hrest.endsNumber hleft.endsNumber (intText_begins i)
      (float_text_begins numberStyle y) (readNumeral_intText i) (exists_readNumeral_float y).1 h
    have hwhole : y.numeral.isWhole = false := Decimal.isWhole_numeral _ _
    rw [← hnumeral] at hwhole
    cases hwhole
  | _ => cases hkind

theorem write_float_cut (layout : Layout) (x : Finite64) {k : Json}
    (h : write layout level (.float x) rest = write layout level k left) (hrest : EndsValue rest)
    (hleft : EndsValue left) : SameText (.float x) k ∧ rest = left := by
  have hkind := kind_eq_of_write h
  cases k with
  | int j =>
    obtain ⟨hsame, -⟩ := write_int_cut layout j h.symm hleft hrest
    cases hsame
  | float y =>
    obtain ⟨htext, -, heq⟩ := number_cut hrest.endsNumber hleft.endsNumber
      (float_text_begins numberStyle x) (float_text_begins numberStyle y)
      (exists_readNumeral_float x).1 (exists_readNumeral_float y).1 h
    exact ⟨.float htext, heq⟩
  | _ => cases hkind

end

mutual

/-- **Two values at the front of one text** are written alike and end at the
same place. -/
theorem write_cut (layout : Layout) : ∀ (j k : Json) {level : Nat} {rest left : List Char},
    write layout level j rest = write layout level k left → EndsValue rest → EndsValue left →
    SameText j k ∧ rest = left
  | .null, k, level, rest, left, h, _, _ => by
    have hkind := kind_eq_of_write h
    cases k with
    | null => exact ⟨.null, by simpa only [write, List.cons.injEq, true_and] using h⟩
    | _ => cases hkind
  | .bool b, k, level, rest, left, h, _, _ => by
    have hkind := kind_eq_of_write h
    cases k with
    | bool c =>
      cases b <;> cases c
      · exact ⟨.bool false, by simpa only [write, List.cons.injEq, true_and] using h⟩
      · exact absurd (List.cons.inj h).1 (by decide)
      · exact absurd (List.cons.inj h).1 (by decide)
      · exact ⟨.bool true, by simpa only [write, List.cons.injEq, true_and] using h⟩
    | _ => cases hkind
  | .int i, k, level, rest, left, h, hrest, hleft => write_int_cut layout i h hrest hleft
  | .float x, k, level, rest, left, h, hrest, hleft => write_float_cut layout x h hrest hleft
  | .str s, k, level, rest, left, h, _, _ => by
    have hkind := kind_eq_of_write h
    cases k with
    | str t =>
      obtain ⟨rfl, heq⟩ := writeString_inj h
      exact ⟨.str s, heq⟩
    | _ => cases hkind
  | .array [], k, level, rest, left, h, _, _ => by
    have hkind := kind_eq_of_write h
    cases k with
    | array others =>
      cases others with
      | nil => exact ⟨.array .nil, (List.cons.inj (List.cons.inj h).2).2⟩
      | cons other others => exact absurd (List.cons.inj h).2 bracket_ne
    | _ => cases hkind
  | .array (item :: items), k, level, rest, left, h, _, _ => by
    have hkind := kind_eq_of_write h
    cases k with
    | array others =>
      cases others with
      | nil => exact absurd (List.cons.inj h).2.symm bracket_ne
      | cons other others =>
        have hrest : Closes (writeBreak layout level (']' :: rest)) :=
          closes_writeBreak layout level (.inl rfl)
        have hleft : Closes (writeBreak layout level (']' :: left)) :=
          closes_writeBreak layout level (.inl rfl)
        obtain ⟨hitem, hmore⟩ := write_cut layout item other (writeBreak_inj (List.cons.inj h).2)
          (endsValue_writeItems hrest.endsValue) (endsValue_writeItems hleft.endsValue)
        obtain ⟨hitems, hclose⟩ := writeItems_cut layout items others hmore hrest hleft
        exact ⟨.array (.cons hitem hitems), (List.cons.inj (writeBreak_inj hclose)).2⟩
    | _ => cases hkind
  | .object [], k, level, rest, left, h, _, _ => by
    have hkind := kind_eq_of_write h
    cases k with
    | object others =>
      cases others with
      | nil => exact ⟨.object .nil, (List.cons.inj (List.cons.inj h).2).2⟩
      | cons other others => exact absurd (List.cons.inj h).2 brace_ne
    | _ => cases hkind
  | .object ((name, value) :: members), k, level, rest, left, h, _, _ => by
    have hkind := kind_eq_of_write h
    cases k with
    | object others =>
      cases others with
      | nil => exact absurd (List.cons.inj h).2.symm brace_ne
      | cons other others =>
        obtain ⟨otherName, other⟩ := other
        have hrest : Closes (writeBreak layout level ('\x7d' :: rest)) :=
          closes_writeBreak layout level (.inr rfl)
        have hleft : Closes (writeBreak layout level ('\x7d' :: left)) :=
          closes_writeBreak layout level (.inr rfl)
        obtain ⟨rfl, hcolon⟩ := writeString_inj (writeBreak_inj (List.cons.inj h).2)
        obtain ⟨hvalue, hmore⟩ := write_cut layout value other (writeColon_inj hcolon)
          (endsValue_writeMembers hrest.endsValue) (endsValue_writeMembers hleft.endsValue)
        obtain ⟨hmembers, hclose⟩ := writeMembers_cut layout members others hmore hrest hleft
        exact ⟨.object (.cons hvalue hmembers), (List.cons.inj (writeBreak_inj hclose)).2⟩
    | _ => cases hkind

theorem writeItems_cut (layout : Layout) : ∀ (items others : List Json) {level : Nat}
    {rest left : List Char},
    writeItems layout level items rest = writeItems layout level others left →
    Closes rest → Closes left → SameItems items others ∧ rest = left
  | [], [], _, _, _, h, _, _ => ⟨.nil, h⟩
  | [], _ :: _, _, _, _, h, hrest, _ => absurd h (hrest.no_comma _)
  | _ :: _, [], _, _, _, h, _, hleft => absurd h.symm (hleft.no_comma _)
  | item :: items, other :: others, level, rest, left, h, hrest, hleft => by
    obtain ⟨hitem, hmore⟩ := write_cut layout item other (writeBreak_inj (List.cons.inj h).2)
      (endsValue_writeItems hrest.endsValue) (endsValue_writeItems hleft.endsValue)
    obtain ⟨hitems, hclose⟩ := writeItems_cut layout items others hmore hrest hleft
    exact ⟨.cons hitem hitems, hclose⟩

theorem writeMembers_cut (layout : Layout) : ∀ (members others : List (String × Json))
    {level : Nat} {rest left : List Char},
    writeMembers layout level members rest = writeMembers layout level others left →
    Closes rest → Closes left → SameMembers members others ∧ rest = left
  | [], [], _, _, _, h, _, _ => ⟨.nil, h⟩
  | [], (_, _) :: _, _, _, _, h, hrest, _ => absurd h (hrest.no_comma _)
  | (_, _) :: _, [], _, _, _, h, _, hleft => absurd h.symm (hleft.no_comma _)
  | (name, value) :: members, (otherName, other) :: others, level, rest, left, h, hrest,
    hleft => by
    obtain ⟨rfl, hcolon⟩ := writeString_inj (writeBreak_inj (List.cons.inj h).2)
    obtain ⟨hvalue, hmore⟩ := write_cut layout value other (writeColon_inj hcolon)
      (endsValue_writeMembers hrest.endsValue) (endsValue_writeMembers hleft.endsValue)
    obtain ⟨hmembers, hclose⟩ := writeMembers_cut layout members others hmore hrest hleft
    exact ⟨.cons hvalue hmembers, hclose⟩

end

/-- **Values with the same text** are written alike, part by part. -/
theorem sameText_of_text {layout : Layout} {j k : Json} (h : text layout j = text layout k) :
    SameText j k := by
  have hchars : write layout 0 j [] = write layout 0 k [] := String.ofList_injective h
  exact (write_cut layout j k hchars endsValue_nil endsValue_nil).1

end PropertyGraph.Json
